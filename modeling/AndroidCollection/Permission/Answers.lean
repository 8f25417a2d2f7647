import AndroidCollection.Permission.PermissionUtils
import AndroidCollection.Lib.Ledger
import AndroidCollection.Lib.Machine
import Mathlib.Data.List.Nodup

/-!
# Every permission request is answered once

Requests are answered at once or wait in a fragment. They are all answered in
exactly the runs in which no fragment is refused, no fragment which waits is
replaced by a later one, no request is made below Android M, and every result is
about the permission which was asked for: a cancelled dialog has an empty result.
-/

namespace AndroidCollection.Permission

open Java PermissionUtils

/-! ## The account -/

abbrev Request := Ref × JString

def PermissionFragment.request (fragment : PermissionFragment) : Option Request :=
  fragment.permissionListener.map fun listener => (listener, fragment.mPermission)

def Transaction.fragment : Transaction → Option PermissionFragment
  | .replace fragment => some fragment
  | .remove _ => none

/-- The fragments which are there or are going to be there. -/
def PermissionUtils.fragments (utils : PermissionUtils) : List PermissionFragment :=
  utils.content.toList ++ utils.queue.filterMap Transaction.fragment

/-- The requests which wait for the user. -/
def PermissionUtils.waiting (utils : PermissionUtils) : List Request :=
  utils.fragments.filterMap PermissionFragment.request

def Input.asked : Input → List Request
  | .requestPermission permission permissionListener _ _ =>
      permissionListener.toList.map fun listener => (listener, permission)
  | _ => []

def Output.answered (output : Output) : List Request :=
  output.call.toList.map fun call => (call.permissionListener, call.permission)

structure Account where
  requests : Ledger Request
  thrown : Bool

def Account.initial : Account :=
  ⟨.empty, false⟩

def account (before : Account) (_ : PermissionUtils) (input : Input) (output : Output) : Account :=
  ⟨before.requests.record input.asked output.answered, before.thrown || output.thrown.isSome⟩

/-- Every request has been answered once or waits for the user, and nothing has thrown. -/
structure Answers (world : PermissionUtils × Account) : Prop where
  balances : world.2.requests.Balances world.1.waiting
  quiet : world.2.thrown = false

/-! ## The condition -/

/-- The request is not answered at once. -/
def asks (platform : Platform) (utils : PermissionUtils) (permission : JString)
    (granted rationale : Bool) : Bool :=
  M ≤ platform.SDK_INT && !granted && (rationale || utils.isFirstRequestPermission permission)

def Served (platform : Platform) (utils : PermissionUtils) : Input → Prop
  | .requestPermission permission permissionListener granted rationale =>
      (platform.SDK_INT < M → permissionListener = none) ∧
        (asks platform utils permission granted rationale = true →
          platform.admitsPrivateClass = true)
  | .execute =>
      ∀ fragment next queue, utils.queue = .replace next :: queue →
        utils.content = some fragment → fragment.permissionListener = none
  | .onRequestPermissionsResult requestCode permissions grantResults =>
      ∀ fragment, utils.content = some fragment → fragment.permissionListener ≠ none →
        requestCode = PERMISSION_REQUEST_CODE ∧ permissions.head? = some fragment.mPermission ∧
          grantResults ≠ []

/-! ## The invariant -/

/-- Fragments can be told apart, and only answered ones are removed. -/
structure Kept (utils : PermissionUtils) : Prop where
  distinct : (utils.fragments.map PermissionFragment.number).Nodup
  numbered : ∀ fragment ∈ utils.fragments, fragment.number < utils.created
  removed : ∀ number, .remove number ∈ utils.queue → number < utils.created ∧
    ∀ fragment ∈ utils.fragments, fragment.number = number → fragment.permissionListener = none

theorem kept_initial (preferences : JString → ℤ) : Kept (initial preferences) := by
  constructor <;> simp [initial, fragments]

section Steps

variable {platform : Platform} {utils : PermissionUtils}

theorem kept_of_sublist {next : PermissionUtils} (kept : Kept utils)
    (sublist : next.fragments.Sublist utils.fragments) (created : next.created = utils.created)
    (queue : ∀ {number}, .remove number ∈ next.queue → .remove number ∈ utils.queue) :
    Kept next := by
  constructor
  · exact kept.distinct.sublist (sublist.map PermissionFragment.number)
  · intro fragment among
    rw [created]
    exact kept.numbered fragment (sublist.subset among)
  · intro number queued
    rw [created]
    rcases kept.removed number (queue queued) with ⟨known, answered⟩
    exact ⟨known, fun fragment among => answered fragment (sublist.subset among)⟩

theorem fragments_wrap (fragment : PermissionFragment) :
    PermissionUtils.fragments { utils with
      queue := utils.queue ++ [.replace fragment]
      created := utils.created + 1 } = utils.fragments ++ [fragment] := by
  simp [fragments, Transaction.fragment]

theorem kept_requestPermissionWrap (kept : Kept utils) (permission : JString)
    (permissionListener : Option Ref) :
    Kept (requestPermissionWrap platform utils permission permissionListener).1 := by
  unfold requestPermissionWrap
  split
  · constructor
    · rw [fragments_wrap, List.map_append, List.nodup_append]
      refine ⟨kept.distinct, List.nodup_singleton _, ?_⟩
      intro number known other new same
      rcases List.mem_map.1 known with ⟨fragment, among, rfl⟩
      simp only [List.map_cons, List.map_nil, List.mem_singleton] at new
      exact (kept.numbered fragment among).ne (same.trans new)
    · intro fragment among
      rw [fragments_wrap, List.mem_append, List.mem_singleton] at among
      rcases among with known | rfl
      · exact (kept.numbered fragment known).trans (Nat.lt_succ_self _)
      · exact Nat.lt_succ_self _
    · intro number queued
      rw [fragments_wrap]
      have earlier : .remove number ∈ utils.queue := by simpa using queued
      rcases kept.removed number earlier with ⟨known, answered⟩
      refine ⟨known.trans (Nat.lt_succ_self _), ?_⟩
      intro fragment among same
      rcases List.mem_append.1 among with old | new
      · exact answered fragment old same
      · rw [List.mem_singleton.1 new] at same
        exact absurd same known.ne'
  · exact kept

theorem kept_requestPermission (kept : Kept utils) (permission : JString)
    (permissionListener : Option Ref) (granted rationale : Bool) :
    Kept (utils.requestPermission platform permission permissionListener granted rationale).1 := by
  have marked : Kept (utils.setFirstRequestPermission permission) :=
    ⟨kept.distinct, kept.numbered, kept.removed⟩
  unfold requestPermission
  split
  · split
    · split
      · exact kept_requestPermissionWrap kept permission permissionListener
      · split
        · exact kept_requestPermissionWrap marked permission permissionListener
        · exact kept
    · exact kept
  · exact kept

theorem fragments_of_remove {number : ℕ} {queue : List Transaction}
    (is : utils.queue = .remove number :: queue) :
    utils.fragments = utils.content.toList ++ queue.filterMap Transaction.fragment := by
  rw [fragments, is, List.filterMap_cons]
  rfl

theorem kept_execute (kept : Kept utils) : Kept utils.execute := by
  unfold execute
  split
  · exact kept
  · next fragment queue is =>
      apply kept_of_sublist kept
      · simp [fragments, is, Transaction.fragment]
      · rfl
      · intro number queued
        rw [is]
        exact List.mem_cons_of_mem _ queued
  · next number queue is =>
      apply kept_of_sublist kept
      · rw [fragments_of_remove is]
        apply List.Sublist.append_right
        change (utils.content.filter _).toList.Sublist utils.content.toList
        cases utils.content with
        | none => exact List.Sublist.refl _
        | some fragment =>
            rw [Option.filter_some]
            split
            · exact List.Sublist.refl _
            · exact List.nil_sublist _
      · rfl
      · intro number queued
        rw [is]
        exact List.mem_cons_of_mem _ queued

theorem kept_result (kept : Kept utils) {fragment : PermissionFragment}
    (content : utils.content = some fragment) (requestCode : ℤ) (permissions : List JString)
    (grantResults : List ℤ) :
    Kept (utils.onRequestPermissionsResult fragment requestCode permissions grantResults).1 := by
  unfold onRequestPermissionsResult
  simp only
  split
  · have before : utils.fragments = fragment :: utils.queue.filterMap Transaction.fragment := by
      simp [fragments, content]
    have after : PermissionUtils.fragments { utils with
        content := some { fragment with permissionListener := none }
        queue := utils.queue ++ [.remove fragment.number] } =
          { fragment with permissionListener := none } ::
            utils.queue.filterMap Transaction.fragment := by
      simp [fragments, Transaction.fragment]
    have distinct := kept.distinct
    have numbered := kept.numbered
    have removed := kept.removed
    rw [before] at distinct numbered removed
    constructor
    · rw [after]
      exact distinct
    · intro other among
      rw [after] at among
      rcases List.mem_cons.1 among with rfl | queued
      · exact numbered fragment List.mem_cons_self
      · exact numbered other (List.mem_cons_of_mem _ queued)
    · intro number queued
      rw [after]
      rcases List.mem_append.1 queued with earlier | new
      · rcases removed number earlier with ⟨known, answered⟩
        refine ⟨known, ?_⟩
        intro other among same
        rcases List.mem_cons.1 among with rfl | later
        · rfl
        · exact answered other (List.mem_cons_of_mem _ later) same
      · cases List.mem_singleton.1 new
        refine ⟨numbered fragment List.mem_cons_self, ?_⟩
        intro other among same
        rcases List.mem_cons.1 among with rfl | later
        · rfl
        · have apart := (List.nodup_cons.1 distinct).1
          exact absurd (same ▸ List.mem_map_of_mem later) apart
  · exact kept

theorem kept_react (kept : Kept utils) (input : Input) : Kept (react platform utils input).1 := by
  cases input with
  | requestPermission permission permissionListener granted rationale =>
      exact kept_requestPermission kept permission permissionListener granted rationale
  | execute => exact kept_execute kept
  | onRequestPermissionsResult requestCode permissions grantResults =>
      simp only [react]
      cases content : utils.content with
      | none => exact kept
      | some fragment => exact kept_result kept content requestCode permissions grantResults

/-! ## One step -/

/-- What is asked of one step. -/
def Sound (platform : Platform) (utils : PermissionUtils) (input : Input) : Prop :=
  (utils.waiting ++ input.asked).Perm
      ((react platform utils input).2.answered ++ (react platform utils input).1.waiting) ∧
    (react platform utils input).2.thrown = none

theorem answers_iff {before : Account} (answers : Answers (utils, before)) (input : Input) :
    Answers (Machine.observed (react platform) account (utils, before) input).1 ↔
      Sound platform utils input := by
  rcases answers with ⟨balances, quiet⟩
  change before.thrown = false at quiet
  have step := balances.record_iff input.asked (react platform utils input).2.answered
    (react platform utils input).1.waiting
  constructor
  · rintro ⟨after, still⟩
    refine ⟨step.1 after, ?_⟩
    simpa [Machine.observed, account, quiet] using still
  · rintro ⟨perm, silent⟩
    exact ⟨step.2 perm, by simp [Machine.observed, account, quiet, silent]⟩

theorem answered_answer (permissionListener : Option Ref) (kind : Answer)
    (permission : JString) :
    (answer permissionListener kind permission).answered =
      permissionListener.toList.map fun listener => (listener, permission) := by
  cases permissionListener <;> rfl

theorem waiting_wrap (permission : JString) (permissionListener : Option Ref) (created : ℕ) :
    PermissionUtils.waiting { utils with
      queue := utils.queue ++ [.replace ⟨created, permissionListener, permission⟩]
      created := utils.created + 1 } =
        utils.waiting ++ permissionListener.toList.map fun listener => (listener, permission) := by
  unfold waiting
  rw [fragments_wrap, List.filterMap_append]
  cases permissionListener <;> rfl

/-- A request which is given to a fragment is sound when the fragment is admitted. -/
theorem wrap_iff (permission : JString) (permissionListener : Option Ref) :
    ((utils.waiting ++ permissionListener.toList.map fun listener => (listener, permission)).Perm
        ((requestPermissionWrap platform utils permission permissionListener).2.answered ++
          (requestPermissionWrap platform utils permission permissionListener).1.waiting) ∧
      (requestPermissionWrap platform utils permission permissionListener).2.thrown = none) ↔
      platform.admitsPrivateClass = true := by
  unfold requestPermissionWrap
  split
  · next admits =>
      rw [waiting_wrap]
      exact iff_of_true ⟨List.Perm.refl _, rfl⟩ admits
  · next refuses =>
      refine iff_of_false ?_ refuses
      rintro ⟨_, silent⟩
      cases silent

/-- What a request does: nothing below Android M, an answer, or a fragment. -/
theorem request_cases (platform : Platform) (utils : PermissionUtils) (permission : JString)
    (permissionListener : Option Ref) (granted rationale : Bool) :
    (platform.SDK_INT < M ∧ asks platform utils permission granted rationale = false ∧
        utils.requestPermission platform permission permissionListener granted rationale =
          (utils, {})) ∨
      (M ≤ platform.SDK_INT ∧ asks platform utils permission granted rationale = false ∧
        ∃ kind, utils.requestPermission platform permission permissionListener granted rationale =
          (utils, answer permissionListener kind permission)) ∨
      (M ≤ platform.SDK_INT ∧ asks platform utils permission granted rationale = true ∧
        ∃ marked : PermissionUtils, marked.waiting = utils.waiting ∧
          utils.requestPermission platform permission permissionListener granted rationale =
            marked.requestPermissionWrap platform permission permissionListener) := by
  unfold requestPermission asks
  by_cases supported : M ≤ platform.SDK_INT
  · right
    rw [if_pos supported]
    cases granted with
    | true => exact Or.inl ⟨supported, by simp, _, rfl⟩
    | false =>
        cases rationale with
        | true => exact Or.inr ⟨supported, by simp [supported], utils, rfl, rfl⟩
        | false =>
            cases first : utils.isFirstRequestPermission permission with
            | true =>
                exact Or.inr ⟨supported, by simp [supported],
                  utils.setFirstRequestPermission permission, rfl, by simp⟩
            | false => exact Or.inl ⟨supported, by simp, _, rfl⟩
  · exact Or.inl ⟨not_le.1 supported, by simp [supported], by rw [if_neg supported]⟩

theorem sound_request_iff (permission : JString) (permissionListener : Option Ref)
    (granted rationale : Bool) :
    Sound platform utils
        (.requestPermission permission permissionListener granted rationale) ↔
      Served platform utils
        (.requestPermission permission permissionListener granted rationale) := by
  simp only [Sound, Served, react, Input.asked]
  rcases request_cases platform utils permission permissionListener granted rationale with
    ⟨below, notAsked, is⟩ | ⟨supported, notAsked, kind, is⟩ | ⟨supported, asked, marked, same, is⟩
  · rw [is]
    simp only [below, notAsked]
    cases permissionListener with
    | none => simp [Output.answered]
    | some listener =>
        refine iff_of_false ?_ (by simp)
        rintro ⟨perm, _⟩
        have lengths := perm.length_eq
        simp [Output.answered] at lengths
  · rw [is, answered_answer]
    exact iff_of_true ⟨List.perm_append_comm, rfl⟩
      ⟨fun below => absurd below (not_lt.2 supported), fun asked => by simp [notAsked] at asked⟩
  · rw [is, ← same, wrap_iff]
    simp [asked, not_lt.2 supported]

/-- The removal of an answered fragment changes nothing for those who wait. -/
theorem waiting_remove (kept : Kept utils) {number : ℕ} {queue : List Transaction}
    (is : utils.queue = .remove number :: queue) : utils.execute.waiting = utils.waiting := by
  have answered := (kept.removed number (is ▸ List.mem_cons_self)).2
  have after : utils.execute.fragments =
      (utils.content.filter fun fragment => fragment.number ≠ number).toList ++
        queue.filterMap Transaction.fragment := by
    simp only [execute, is, fragments]
  rw [fragments_of_remove is] at answered
  rw [waiting, waiting, after, fragments_of_remove is, List.filterMap_append,
    List.filterMap_append]
  congr 1
  cases content : utils.content with
  | none => rfl
  | some fragment =>
      by_cases same : fragment.number = number
      · have silent := answered fragment (by simp [content]) same
        simp [same, PermissionFragment.request, silent]
      · rw [Option.filter_some, if_pos (decide_eq_true same)]

theorem sound_execute_iff (kept : Kept utils) :
    Sound platform utils .execute ↔ Served platform utils .execute := by
  simp only [Sound, Served, react, Input.asked, List.append_nil]
  cases is : utils.queue with
  | nil =>
      have unchanged : utils.execute = utils := by simp only [execute, is]
      rw [unchanged]
      simp [Output.answered]
  | cons first queue =>
      cases first with
      | remove number =>
          rw [waiting_remove kept is]
          simp [Output.answered]
      | replace next =>
          have before : utils.waiting = (utils.content.bind PermissionFragment.request).toList ++
              (next :: queue.filterMap Transaction.fragment).filterMap
                PermissionFragment.request := by
            rw [waiting, fragments, is, List.filterMap_append]
            cases utils.content with
            | none => rfl
            | some fragment =>
                cases request : fragment.request <;>
                  simp [request, Transaction.fragment]
          have after : utils.execute.waiting =
              (next :: queue.filterMap Transaction.fragment).filterMap
                PermissionFragment.request := by
            simp [waiting, execute, is, fragments]
          rw [before, after]
          cases content : utils.content with
          | none => simp [Output.answered]
          | some fragment =>
              cases listener : fragment.permissionListener with
              | none => simp [Output.answered, PermissionFragment.request, listener]
              | some listener =>
                  refine iff_of_false ?_ (by simp [listener])
                  rintro ⟨perm, _⟩
                  have lengths := perm.length_eq
                  simp [Output.answered, PermissionFragment.request, listener] at lengths

/-- When the result answers the request of a fragment. -/
theorem answerResult_iff {fragment : PermissionFragment} {listener : Ref}
    (is : fragment.permissionListener = some listener) (requestCode : ℤ)
    (permissions : List JString) (grantResults : List ℤ) :
    ((answerResult fragment requestCode permissions grantResults).answered =
          [(listener, fragment.mPermission)] ∧
        (answerResult fragment requestCode permissions grantResults).thrown = none) ↔
      requestCode = PERMISSION_REQUEST_CODE ∧ permissions.head? = some fragment.mPermission ∧
        grantResults ≠ [] := by
  unfold answerResult
  by_cases code : requestCode = PERMISSION_REQUEST_CODE
  · rw [if_pos ⟨code, by simp [is]⟩]
    cases permissions with
    | nil => simp
    | cons permission permissions =>
        by_cases same : fragment.mPermission = permission
        · cases grantResults with
          | nil => simp [same]
          | cons grantResult grantResults =>
              refine iff_of_true ?_ ⟨code, by rw [same]; rfl, by simp⟩
              simp only [if_pos same]
              split <;> simp [answer, is, Output.answered]
        · have other : ¬permission = fragment.mPermission := fun is => same is.symm
          simp [same, other, Output.answered]
  · simp [code, Output.answered]

/-- A result which does not throw leaves the fragment without its listener. -/
theorem result_cases (utils : PermissionUtils) (fragment : PermissionFragment)
    (requestCode : ℤ) (permissions : List JString) (grantResults : List ℤ) :
    (utils.onRequestPermissionsResult fragment requestCode permissions grantResults).2 =
        answerResult fragment requestCode permissions grantResults ∧
      ((answerResult fragment requestCode permissions grantResults).thrown = none →
        (utils.onRequestPermissionsResult fragment requestCode permissions
            grantResults).1.waiting =
          (utils.queue.filterMap Transaction.fragment).filterMap PermissionFragment.request) := by
  unfold onRequestPermissionsResult
  by_cases silent : (answerResult fragment requestCode permissions grantResults).thrown = none
  · simp only [if_pos silent]
    refine ⟨trivial, fun _ => ?_⟩
    simp only [waiting, fragments, Option.toList_some, List.filterMap_append,
      List.singleton_append]
    rw [show [Transaction.remove fragment.number].filterMap Transaction.fragment = [] from rfl,
      List.append_nil]
    rfl
  · simp only [if_neg silent]
    exact ⟨trivial, fun contrary => absurd contrary silent⟩

theorem sound_result_iff (requestCode : ℤ) (permissions : List JString)
    (grantResults : List ℤ) :
    Sound platform utils (.onRequestPermissionsResult requestCode permissions grantResults) ↔
      Served platform utils
        (.onRequestPermissionsResult requestCode permissions grantResults) := by
  simp only [Sound, Served, react, Input.asked, List.append_nil]
  cases content : utils.content with
  | none => simp [Output.answered]
  | some fragment =>
      have before : utils.waiting = fragment.request.toList ++
          (utils.queue.filterMap Transaction.fragment).filterMap PermissionFragment.request := by
        rw [waiting, fragments, content, List.filterMap_append]
        cases request : fragment.request <;> simp [request]
      rcases result_cases utils fragment requestCode permissions grantResults with ⟨is, after⟩
      simp only [is]
      cases listener : fragment.permissionListener with
      | none =>
          have ignored : answerResult fragment requestCode permissions grantResults = {} := by
            simp [answerResult, listener]
          rw [ignored] at after ⊢
          rw [after rfl, before]
          simp [PermissionFragment.request, listener, Output.answered]
      | some permissionListener =>
          have request : fragment.request = some (permissionListener, fragment.mPermission) := by
            simp [PermissionFragment.request, listener]
          constructor
          · rintro ⟨perm, silent⟩
            rw [after silent, before, request, List.perm_append_right_iff] at perm
            intro other same _
            cases same
            exact (answerResult_iff listener requestCode permissions grantResults).1
              ⟨(List.singleton_perm.1 perm).symm, silent⟩
          · intro served
            rcases (answerResult_iff listener requestCode permissions grantResults).2
              (served fragment rfl (by simp [listener])) with ⟨answered, silent⟩
            rw [after silent, before, request, answered]
            exact ⟨List.Perm.refl _, silent⟩

theorem sound_iff (kept : Kept utils) (input : Input) :
    Sound platform utils input ↔ Served platform utils input := by
  cases input with
  | requestPermission permission permissionListener granted rationale =>
      exact sound_request_iff permission permissionListener granted rationale
  | execute => exact sound_execute_iff kept
  | onRequestPermissionsResult requestCode permissions grantResults =>
      exact sound_result_iff requestCode permissions grantResults

end Steps

/-! ## Every run -/

theorem requests_answered_iff (platform : Platform) (preferences : JString → ℤ)
    (inputs : List Input) :
    Machine.Throughout (Machine.observed (react platform) account) Answers
        (initial preferences, .initial) inputs ↔
      Machine.Every (Machine.observed (react platform) account)
        (fun world => Served platform world.1) (initial preferences, .initial) inputs := by
  apply Machine.throughout_iff_every fun world => Kept world.1
  · rintro ⟨utils, before⟩ input kept answers
    exact (answers_iff answers input).trans (sound_iff kept input)
  · rintro ⟨utils, before⟩ input kept _
    exact kept_react kept input
  · exact kept_initial preferences
  · exact ⟨Ledger.empty_balances, rfl⟩

/-- A dialog which is cancelled has an empty result, at which the fragment throws. -/
theorem requests_not_answered :
    ¬∀ (platform : Platform) (preferences : JString → ℤ) (inputs : List Input),
      Machine.Throughout (Machine.observed (react platform) account) Answers
        (initial preferences, .initial) inputs := by
  intro always
  have quiet := (always ⟨26, true⟩ (fun _ => 0)
    [.requestPermission (ascii ['p']) (some 1) false false, .execute,
      .onRequestPermissionsResult PERMISSION_REQUEST_CODE [] []] _ []
    (List.append_nil _).symm).quiet
  revert quiet
  decide

end AndroidCollection.Permission
