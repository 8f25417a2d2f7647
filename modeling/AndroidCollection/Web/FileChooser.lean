import AndroidCollection.Web.WebHelper
import AndroidCollection.Lib.Ledger
import AndroidCollection.Lib.Machine

/-!
# Every file request of a page is answered once

A page waits for its callback. No callback is lost, and none is left pending when
the last dialog is closed and the last result is in, in exactly the runs in which
no request comes while one of its kind is pending, and no step which answers
nothing is the last thing that was open: a click on the camera without the
permission, a picture chosen without an intent, an unknown result code.
-/

namespace AndroidCollection.Web

open Java WebHelper

/-! ## The account -/

inductive Callback where
  | file (callback : Ref)
  | files (callback : Ref)
deriving DecidableEq, Repr

def WebHelper.pending (helper : WebHelper) : List Callback :=
  helper.uploadFile.toList.map .file ++ helper.uploadFiles.toList.map .files

def Input.handed : Input → List Callback
  | .openFileChooser uploadMsg => [.file uploadMsg]
  | .onShowFileChooser filePathCallback _ => [.files filePathCallback]
  | _ => []

def Effect.answered : Effect → Option Callback
  | .receiveFile callback _ => some (.file callback)
  | .receiveFiles callback _ => some (.files callback)
  | _ => none

def Output.answered (output : Output) : List Callback :=
  output.effects.filterMap Effect.answered

def account (before : Ledger Callback) (_ : WebHelper) (input : Input) (output : Output) :
    Ledger Callback :=
  before.record input.handed output.answered

/-- A dialog is shown or a result is awaited. -/
def WebHelper.Open (helper : WebHelper) : Prop :=
  helper.dialogs ≠ [] ∨ helper.awaited ≠ []

/-- Every callback has been answered once or is pending, and none is pending for nothing. -/
structure Answers (world : WebHelper × Ledger Callback) : Prop where
  balances : world.2.Balances world.1.pending
  awaits : world.1.pending ≠ [] → world.1.Open

/-! ## The condition -/

/-- A result which answers the callbacks. -/
def answersResult (requestCode resultCode : ℤ) (data : Intent) : Bool :=
  resultCode = RESULT_CANCELED || resultCode = RESULT_OK &&
    (requestCode = CHOOSER_GALLERY_REQUEST_CODE && data ≠ none ||
      requestCode = CHOOSER_CAMERA_REQUEST_CODE)

def Served (helper : WebHelper) : Input → Prop
  | .openFileChooser _ => helper.isFragmentActivity = true ∧ helper.uploadFile = none
  | .onShowFileChooser _ _ => helper.isFragmentActivity = true ∧ helper.uploadFiles = none
  | .click dialog (.tv_camera granted _ _) =>
      dialog ∈ helper.dialogs → granted = false → helper.pending ≠ [] →
        helper.dialogs.erase dialog ≠ [] ∨ helper.awaited ≠ []
  | .onActivityResult requestCode resultCode data =>
      answersResult requestCode resultCode data = false → helper.pending ≠ [] →
        helper.dialogs ≠ [] ∨ helper.awaited.erase requestCode ≠ []
  | _ => True

/-! ## The steps -/

/-- Without an activity nothing is ever open. -/
def Kept (helper : WebHelper) : Prop :=
  helper.isFragmentActivity = false → helper.dialogs = [] ∧ helper.awaited = []

section Steps

variable {helper : WebHelper} {before : Ledger Callback}

variable (helper) in
theorem receive_pending (file : Option Ref) (files : Option (List (Option Ref))) :
    (helper.receive file files).1.pending = [] ∧
      (helper.receive file files).2.answered = helper.pending := by
  refine ⟨rfl, ?_⟩
  unfold receive Output.answered pending
  cases helper.uploadFile <;> cases helper.uploadFiles <;> rfl

variable (helper) in
/-- A result answers everything that is pending, or leaves everything as it is. -/
theorem onActivityForResult_cases (requestCode resultCode : ℤ) (data : Intent) :
    (answersResult requestCode resultCode data = true ∧
        (helper.onActivityForResult requestCode resultCode data).1.pending = [] ∧
        (helper.onActivityForResult requestCode resultCode data).2.answered = helper.pending) ∨
      (answersResult requestCode resultCode data = false ∧
        (helper.onActivityForResult requestCode resultCode data).1 = helper ∧
        (helper.onActivityForResult requestCode resultCode data).2.answered = []) := by
  unfold onActivityForResult answersResult
  by_cases ok : resultCode = RESULT_OK
  · have notCanceled : ¬RESULT_OK = RESULT_CANCELED := by decide
    by_cases gallery : requestCode = CHOOSER_GALLERY_REQUEST_CODE
    · cases data with
      | some data =>
          have received := receive_pending helper data (some [data])
          simp [ok, gallery, received]
      | none =>
          have notCamera : ¬CHOOSER_GALLERY_REQUEST_CODE = CHOOSER_CAMERA_REQUEST_CODE := by decide
          right
          refine ⟨by simp [ok, notCanceled, gallery, notCamera], ?_⟩
          simp only [if_pos ok, if_pos gallery]
          split <;> exact ⟨rfl, rfl⟩
    · by_cases camera : requestCode = CHOOSER_CAMERA_REQUEST_CODE
      · have received := receive_pending helper helper.mUri (some [helper.mUri])
        have notGallery : ¬CHOOSER_CAMERA_REQUEST_CODE = CHOOSER_GALLERY_REQUEST_CODE := by decide
        simp [ok, camera, notGallery, received]
      · right
        simp [ok, notCanceled, gallery, camera, Output.answered]
  · by_cases canceled : resultCode = RESULT_CANCELED
    · have received := receive_pending helper none none
      have notOk : ¬RESULT_CANCELED = RESULT_OK := by decide
      simp [canceled, notOk, received]
    · right
      simp [ok, canceled, Output.answered]

/-- A step which hands over nothing and answers everything that is pending. -/
theorem answers_of_answering {next : WebHelper} {output : Output} {input : Input}
    (answers : Answers (helper, before)) (handed : input.handed = []) (pending : next.pending = [])
    (answered : output.answered = helper.pending) :
    Answers (next, account before helper input output) := by
  constructor
  · apply (answers.balances.record_iff _ _ _).2
    rw [handed, answered, pending]
  · intro waiting
    exact absurd pending waiting

/-- A step which hands over and answers nothing only has to leave something open. -/
theorem answers_of_silent_iff {next : WebHelper} {output : Output} {input : Input}
    (answers : Answers (helper, before)) (handed : input.handed = [])
    (pending : next.pending = helper.pending) (answered : output.answered = []) :
    Answers (next, account before helper input output) ↔ (helper.pending ≠ [] → next.Open) := by
  constructor
  · intro after
    rw [← pending]
    exact after.awaits
  · intro open'
    constructor
    · apply (answers.balances.record_iff _ _ _).2
      rw [handed, answered, pending, List.append_nil, List.nil_append]
    · intro waiting
      change next.pending ≠ [] at waiting
      rw [pending] at waiting
      exact open' waiting

/-- A request, given what its setter makes of the callbacks. -/
theorem answers_showOptions_iff {set : WebHelper} {input : Input} {callback : Callback}
    {vacant : Prop} (kept : Kept helper) (answers : Answers (helper, before))
    (handed : input.handed = [callback]) (context : set.isFragmentActivity =
      helper.isFragmentActivity) (dialogs : set.dialogs = helper.dialogs)
    (awaited : set.awaited = helper.awaited) (waits : set.pending ≠ [])
    (overwrites : (helper.pending ++ [callback]).Perm set.pending ↔ vacant) :
    Answers (set.showOptions.1, account before helper input set.showOptions.2) ↔
      helper.isFragmentActivity = true ∧ vacant := by
  unfold showOptions
  cases activity : helper.isFragmentActivity with
  | false =>
      rcases kept activity with ⟨noDialog, noneAwaited⟩
      rw [context, activity, if_neg (by simp)]
      refine iff_of_false ?_ (by simp)
      intro after
      rcases after.awaits waits with shown | expected
      · exact shown (dialogs.trans noDialog)
      · exact expected (awaited.trans noneAwaited)
  | true =>
      rw [context, activity, if_pos rfl]
      have step := answers.balances.record_iff [callback] [] set.pending
      rw [List.nil_append, overwrites] at step
      constructor
      · intro after
        have balances := after.balances
        simp only [account, handed] at balances
        exact ⟨rfl, step.1 balances⟩
      · rintro ⟨_, isVacant⟩
        constructor
        · simp only [account, handed]
          exact step.2 isVacant
        · intro _
          exact Or.inl (by simp)

theorem overwrites_file (uploadMsg : Ref) :
    (helper.pending ++ [Callback.file uploadMsg]).Perm
        (helper.setUploadFile (some uploadMsg)).pending ↔ helper.uploadFile = none := by
  unfold pending setUploadFile
  cases helper.uploadFile with
  | none =>
      refine iff_of_true ?_ rfl
      exact List.perm_append_comm
  | some earlier =>
      refine iff_of_false ?_ (by simp)
      intro perm
      have lengths := perm.length_eq
      simp at lengths

theorem overwrites_files (filePathCallback : Ref) (fileChooserParams : Option Ref) :
    (helper.pending ++ [Callback.files filePathCallback]).Perm
        ((helper.setUploadFiles (some filePathCallback)).setFileChooserParams
          fileChooserParams).pending ↔ helper.uploadFiles = none := by
  unfold pending setFileChooserParams setUploadFiles
  cases helper.uploadFiles with
  | none =>
      refine iff_of_true ?_ rfl
      simp
  | some earlier =>
      refine iff_of_false ?_ (by simp)
      intro perm
      have lengths := perm.length_eq
      simp at lengths

/-- Closing a dialog after a choice only closes it. -/
theorem dismiss_true (dialog : ℕ) :
    dismiss helper dialog true = ({ helper with dialogs := helper.dialogs.erase dialog }, {}) :=
  rfl

/-- A click which does not throw closes the dialog after the choice. -/
theorem onClick_eq {dialog : ℕ} {choice : Choice}
    (silent : (choose helper choice).2.thrown = none) :
    onClick helper dialog choice =
      ({ (choose helper choice).1 with
          dialogs := (choose helper choice).1.dialogs.erase dialog },
        { effects := (choose helper choice).2.effects }) := by
  unfold onClick
  simp only [silent, dismiss_true, List.append_nil]

theorem onClick_throws {dialog : ℕ} {choice : Choice} {exception : Throwable}
    (throws : (choose helper choice).2.thrown = some exception) :
    onClick helper dialog choice = choose helper choice := by
  unfold onClick
  simp only [throws]

/-- A click after which something is open again, and which answers nothing. -/
theorem answers_click_start {input : Input} {next : WebHelper} {output : Output}
    (answers : Answers (helper, before)) (handed : input.handed = [])
    (pending : next.pending = helper.pending) (answered : output.answered = [])
    (opened : next.Open) : Answers (next, account before helper input output) :=
  (answers_of_silent_iff answers handed pending answered).2 fun _ => opened

theorem answers_camera_iff (answers : Answers (helper, before)) {dialog : ℕ}
    (shown : dialog ∈ helper.dialogs) (granted : Bool) (uri : Option Ref) (starts : Bool) :
    Answers ((onClick helper dialog (.tv_camera granted uri starts)).1,
        account before helper (.click dialog (.tv_camera granted uri starts))
          (onClick helper dialog (.tv_camera granted uri starts)).2) ↔
      Served helper (.click dialog (.tv_camera granted uri starts)) := by
  cases granted with
  | false =>
      rw [onClick_eq rfl]
      refine (answers_of_silent_iff answers ?_ ?_ ?_).trans ?_
      · rfl
      · rfl
      · rfl
      · simp only [Served, shown, forall_const]
        rfl
  | true =>
      refine iff_of_true ?_ (by simp [Served])
      cases uri with
      | none =>
          rw [onClick_throws rfl]
          exact answers_click_start answers rfl rfl rfl
            (Or.inl (List.ne_nil_of_mem shown))
      | some uri =>
          cases starts with
          | false =>
              rw [onClick_throws rfl]
              exact answers_click_start answers rfl rfl rfl
                (Or.inl (List.ne_nil_of_mem shown))
          | true =>
              rw [onClick_eq rfl]
              refine answers_click_start answers rfl rfl rfl (Or.inr ?_)
              simp [choose, openCamera, realOpenCamera]

theorem answers_click_iff (answers : Answers (helper, before)) (dialog : ℕ) (choice : Choice) :
    Answers (Machine.observed react account (helper, before) (.click dialog choice)).1 ↔
      Served helper (.click dialog choice) := by
  simp only [Machine.observed, react]
  by_cases shown : dialog ∈ helper.dialogs
  · rw [if_pos shown]
    cases choice with
    | tv_camera granted uri starts => exact answers_camera_iff answers shown granted uri starts
    | tv_photo starts =>
        refine iff_of_true ?_ trivial
        cases starts with
        | false =>
            rw [onClick_throws rfl]
            exact answers_click_start answers rfl rfl rfl (Or.inl (List.ne_nil_of_mem shown))
        | true =>
            rw [onClick_eq rfl]
            refine answers_click_start answers rfl rfl rfl (Or.inr ?_)
            simp [choose, openGallery]
    | tv_cancel =>
        refine iff_of_true ?_ trivial
        have received := receive_pending helper none none
        rw [onClick_eq rfl]
        exact answers_of_answering answers rfl received.1 received.2
  · rw [if_neg shown]
    refine iff_of_true ?_ ?_
    · exact (answers_of_silent_iff answers rfl rfl rfl).2 answers.awaits
    · cases choice with
      | tv_camera granted uri starts => exact fun among => absurd among shown
      | tv_photo starts => trivial
      | tv_cancel => trivial

theorem answers_dismissed (answers : Answers (helper, before)) (dialog : ℕ) :
    Answers (Machine.observed react account (helper, before) (.dismissed dialog)).1 := by
  simp only [Machine.observed, react]
  split
  · have received := receive_pending { helper with
      dialogs := helper.dialogs.erase dialog } none none
    exact answers_of_answering answers rfl received.1 received.2
  · exact (answers_of_silent_iff answers rfl rfl rfl).2 answers.awaits

theorem answers_result_iff (answers : Answers (helper, before)) (requestCode resultCode : ℤ)
    (data : Intent) :
    Answers (Machine.observed react account (helper, before)
        (.onActivityResult requestCode resultCode data)).1 ↔
      Served helper (.onActivityResult requestCode resultCode data) := by
  simp only [Machine.observed, react, Served]
  rcases onActivityForResult_cases { helper with
      awaited := helper.awaited.erase requestCode } requestCode resultCode data with
    ⟨answering, pending, answered⟩ | ⟨silent, same, answered⟩
  · refine iff_of_true ?_ (by simp [answering])
    exact answers_of_answering answers rfl pending answered
  · rw [answers_of_silent_iff answers rfl (by rw [same]; rfl) answered, same]
    simp only [silent, forall_const]
    rfl

theorem answers_step_iff (kept : Kept helper) (answers : Answers (helper, before))
    (input : Input) :
    Answers (Machine.observed react account (helper, before) input).1 ↔ Served helper input := by
  cases input with
  | openFileChooser uploadMsg =>
      exact answers_showOptions_iff kept answers rfl rfl rfl rfl (by simp [pending, setUploadFile])
        (overwrites_file uploadMsg)
  | onShowFileChooser filePathCallback fileChooserParams =>
      exact answers_showOptions_iff kept answers rfl rfl rfl rfl
        (by simp [pending, setFileChooserParams, setUploadFiles])
        (overwrites_files filePathCallback fileChooserParams)
  | click dialog choice => exact answers_click_iff answers dialog choice
  | dismissed dialog => exact iff_of_true (answers_dismissed answers dialog) trivial
  | onActivityResult requestCode resultCode data =>
      exact answers_result_iff answers requestCode resultCode data

variable (helper) in
theorem onActivityForResult_keeps (requestCode resultCode : ℤ) (data : Intent) :
    (helper.onActivityForResult requestCode resultCode data).1.isFragmentActivity =
        helper.isFragmentActivity ∧
      (helper.onActivityForResult requestCode resultCode data).1.dialogs = helper.dialogs ∧
      (helper.onActivityForResult requestCode resultCode data).1.awaited = helper.awaited := by
  unfold onActivityForResult receive
  repeat' split
  all_goals exact ⟨rfl, rfl, rfl⟩

theorem choose_context (choice : Choice) :
    (choose helper choice).1.isFragmentActivity = helper.isFragmentActivity := by
  cases choice with
  | tv_camera granted uri starts =>
      simp only [choose, openCamera, realOpenCamera]
      repeat' split
      all_goals rfl
  | tv_photo starts =>
      simp only [choose, openGallery]
      split <;> rfl
  | tv_cancel => rfl

theorem react_context (input : Input) :
    (react helper input).1.isFragmentActivity = helper.isFragmentActivity := by
  cases input with
  | openFileChooser uploadMsg =>
      simp only [react, showOptions]
      split <;> rfl
  | onShowFileChooser filePathCallback fileChooserParams =>
      simp only [react, showOptions]
      split <;> rfl
  | click dialog choice =>
      simp only [react]
      split
      · cases silent : (choose helper choice).2.thrown with
        | none =>
            rw [onClick_eq silent]
            exact choose_context choice
        | some exception =>
            rw [onClick_throws silent]
            exact choose_context choice
      · rfl
  | dismissed dialog =>
      simp only [react]
      split <;> rfl
  | onActivityResult requestCode resultCode data =>
      exact (onActivityForResult_keeps _ requestCode resultCode data).1

theorem kept_react (kept : Kept helper) (input : Input) : Kept (react helper input).1 := by
  intro after
  rw [react_context] at after
  rcases kept after with ⟨noDialog, noneAwaited⟩
  cases input with
  | openFileChooser uploadMsg =>
      simp [react, setUploadFile, showOptions, after, noDialog, noneAwaited]
  | onShowFileChooser filePathCallback fileChooserParams =>
      simp [react, setUploadFiles, setFileChooserParams, showOptions, after, noDialog, noneAwaited]
  | click dialog choice => simp [react, noDialog, noneAwaited]
  | dismissed dialog => simp [react, noDialog, noneAwaited]
  | onActivityResult requestCode resultCode data =>
      have keeps := onActivityForResult_keeps { helper with
        awaited := helper.awaited.erase requestCode } requestCode resultCode data
      refine ⟨keeps.2.1.trans noDialog, keeps.2.2.trans ?_⟩
      simp [noneAwaited]

end Steps

/-! ## Every run -/

end AndroidCollection.Web
