import AndroidCollection.Java.Text
import AndroidCollection.Lib.Machine
import AndroidCollection.Lib.TextSearch
import Mathlib.Logic.Function.Basic

/-!
# The parameters of a `PvrAction`

`PvrAction` gets two parameters out of the text of a uri by searching for their keys.
The url is what follows the first `url=`, to the end of the text; the orientation is
what follows the first `orientation=`, to the next ampersand. Neither search stops at
the parts of the uri: it can hit the text before the query, the end of a longer key or
the inside of a value, and the search for the orientation goes on into the url. The
parameters are only looked up when the orientation is asked for, so that the url is
null until then.
-/

namespace AndroidCollection.Web

open Java TextSearch

namespace PvrAction

def PARAMS_URL_KEY : JString :=
  ascii ['u', 'r', 'l']

def PARAMS_ORENTATION_KEY : JString :=
  ascii ['o', 'r', 'i', 'e', 'n', 't', 'a', 't', 'i', 'o', 'n']

def equalsSign : UInt16 := 0x3D

def ampersand : UInt16 := 0x26

def questionMark : UInt16 := 0x3F

abbrev Params := JString → Option JString

def put (params : Params) (key value : JString) : Params :=
  Function.update params key (some value)

/-- `text.substring(beginIndex, endIndex)`, where the indices are in order. -/
def substring (text : JString) (beginIndex endIndex : ℕ) : JString :=
  (text.take endIndex).drop beginIndex

def analyUrl (params : Params) (url : JString) : Params :=
  match indexOf (PARAMS_URL_KEY ++ [equalsSign]) url with
  | none => params
  | some urlIndex =>
      put params PARAMS_URL_KEY (url.drop (urlIndex + PARAMS_URL_KEY.length + 1))

def analyOrientation (params : Params) (url : JString) : Params :=
  match indexOf (PARAMS_ORENTATION_KEY ++ [equalsSign]) url with
  | none => params
  | some orIndex =>
      let lastIndex :=
        match indexOf [ampersand] (url.drop orIndex) with
        | none => url.length
        | some distance => orIndex + distance
      put params PARAMS_ORENTATION_KEY
        (substring url (orIndex + PARAMS_ORENTATION_KEY.length + 1) lastIndex)

def analyData (params : Params) (url : JString) : Params :=
  if url = [] then params else analyOrientation (analyUrl params url) url

def getOritation (uri : JString) (params : Params) : Params × Option JString :=
  let params := analyData params uri
  (params, params PARAMS_ORENTATION_KEY)

def getUrl (params : Params) : Option JString :=
  params PARAMS_URL_KEY

/-! ## Calls on a uri with a query -/

structure Parameter where
  key : JString
  value : JString
  key_plain : equalsSign ∉ key ∧ ampersand ∉ key
  value_plain : ampersand ∉ value

/-- A uri whose query ends with the parameter for the url. -/
structure Query where
  beforeQuery : JString
  parameters : List Parameter
  url : JString

namespace Query

def beforeUrl (query : Query) : JString :=
  query.beforeQuery ++ questionMark :: query.parameters.flatMap fun parameter =>
    parameter.key ++ equalsSign :: (parameter.value ++ [ampersand])

def toString (query : Query) : JString :=
  query.beforeUrl ++ ((PARAMS_URL_KEY ++ [equalsSign]) ++ query.url)

/-- The value of the parameter for the orientation, if there is one. -/
def orientation (query : Query) : Option JString :=
  (query.parameters.find? fun parameter => parameter.key = PARAMS_ORENTATION_KEY).map
    Parameter.value

end Query

inductive Call where
  | getOritation
  | getUrl
deriving DecidableEq, Repr

def call (query : Query) (params : Params) : Call → Params × Option JString
  | .getOritation => getOritation query.toString params
  | .getUrl => (params, getUrl params)

def Extracts (query : Query) (params : Params) : Call → Prop
  | .getOritation => (call query params .getOritation).2 = query.orientation
  | .getUrl => (call query params .getUrl).2 = some query.url

/-- Nothing before the parameter for the url looks like it. -/
def UrlClear (query : Query) : Prop :=
  ¬PARAMS_URL_KEY ++ [equalsSign] <:+: query.beforeUrl

/-- Nothing in the whole uri looks like a parameter for the orientation unless there is one, and
the first text which does has its value. -/
def OrientationClear (query : Query) : Prop :=
  match query.orientation with
  | none => ¬PARAMS_ORENTATION_KEY ++ [equalsSign] <:+: query.toString
  | some value =>
      ∃ before after, ¬PARAMS_ORENTATION_KEY ++ [equalsSign] <:+: before ∧
        query.toString =
          before ++ ((PARAMS_ORENTATION_KEY ++ [equalsSign]) ++ (value ++ after)) ∧
        (after = [] ∨ after.head? = some ampersand)

/-! ## What is found -/

/-- What follows the first `url=`. -/
def urlIn (text : JString) : Option JString :=
  behind (PARAMS_URL_KEY ++ [equalsSign]) text

/-- What follows the first `orientation=`, up to an ampersand. -/
def orientationIn (text : JString) : Option JString :=
  (behind (PARAMS_ORENTATION_KEY ++ [equalsSign]) text).map (·.takeWhile (· ≠ ampersand))

theorem unbordered_url : Unbordered (PARAMS_URL_KEY ++ [equalsSign]) :=
  unbordered_concat (by decide)

theorem unbordered_orientation : Unbordered (PARAMS_ORENTATION_KEY ++ [equalsSign]) :=
  unbordered_concat (by decide)

section Searches

variable (params : Params) (text : JString)

theorem analyUrl_url :
    analyUrl params text PARAMS_URL_KEY = (urlIn text).or (params PARAMS_URL_KEY) := by
  rw [analyUrl, urlIn, behind]
  cases indexOf (PARAMS_URL_KEY ++ [equalsSign]) text with
  | none => rfl
  | some urlIndex => exact Function.update_self _ _ _

theorem analyUrl_orientation :
    analyUrl params text PARAMS_ORENTATION_KEY = params PARAMS_ORENTATION_KEY := by
  rw [analyUrl]
  cases indexOf (PARAMS_URL_KEY ++ [equalsSign]) text with
  | none => rfl
  | some urlIndex => exact Function.update_of_ne (by decide) _ _

theorem analyOrientation_url :
    analyOrientation params text PARAMS_URL_KEY = params PARAMS_URL_KEY := by
  rw [analyOrientation]
  cases indexOf (PARAMS_ORENTATION_KEY ++ [equalsSign]) text with
  | none => rfl
  | some orIndex => exact Function.update_of_ne (by decide) _ _

/-- The end which is searched for from a key without an ampersand is that of the value. -/
theorem substring_lastIndex {key : JString} (plain : ampersand ∉ key) (before after : JString) :
    substring (before ++ (key ++ after)) (before.length + key.length)
        (match indexOf [ampersand] ((before ++ (key ++ after)).drop before.length) with
        | none => (before ++ (key ++ after)).length
        | some distance => before.length + distance) =
      after.takeWhile (· ≠ ampersand) := by
  have rest : (before ++ (key ++ after)).drop before.length = key ++ after :=
    List.drop_left
  have last : (match indexOf [ampersand] (key ++ after) with
      | none => (before ++ (key ++ after)).length
      | some distance => before.length + distance) =
      before.length + ((indexOf [ampersand] (key ++ after)).getD (key ++ after).length) := by
    cases indexOf [ampersand] (key ++ after) with
    | none => exact List.length_append
    | some distance => rfl
  rw [rest, last, substring, List.take_length_add_append, take_indexOf_singleton,
    takeWhile_append plain, drop_behind]

theorem analyOrientation_orientation :
    analyOrientation params text PARAMS_ORENTATION_KEY =
      (orientationIn text).or (params PARAMS_ORENTATION_KEY) := by
  rw [analyOrientation, orientationIn, behind]
  cases found : indexOf (PARAMS_ORENTATION_KEY ++ [equalsSign]) text with
  | none => rfl
  | some orIndex =>
      rcases indexOf_eq_some found with ⟨before, after, rfl, rfl, _⟩
      refine (Function.update_self _ _ _).trans (congrArg some ?_)
      simp only [drop_behind]
      exact @substring_lastIndex (PARAMS_ORENTATION_KEY ++ [equalsSign]) (by decide) before after

theorem analyData_url :
    analyData params text PARAMS_URL_KEY = (urlIn text).or (params PARAMS_URL_KEY) := by
  rw [analyData]
  split
  · next empty => rw [empty]; rfl
  · rw [analyOrientation_url, analyUrl_url]

theorem analyData_orientation :
    analyData params text PARAMS_ORENTATION_KEY =
      (orientationIn text).or (params PARAMS_ORENTATION_KEY) := by
  rw [analyData]
  split
  · next empty => rw [empty]; rfl
  · rw [analyOrientation_orientation, analyUrl_orientation]

end Searches

/-! ## Runs -/

variable (query : Query)

theorem urlIn_toString_iff : urlIn query.toString = some query.url ↔ UrlClear query := by
  rw [urlIn, behind_eq_some_iff unbordered_url (by decide)]
  constructor
  · rintro ⟨before, fresh, whole⟩
    rw [UrlClear, List.append_cancel_right whole]
    exact fresh
  · intro clear
    exact ⟨query.beforeUrl, clear, rfl⟩

theorem orientation_plain {value : JString} (outer : query.orientation = some value) :
    ampersand ∉ value := by
  rcases Option.map_eq_some_iff.1 outer with ⟨parameter, _, rfl⟩
  exact parameter.value_plain

theorem orientationIn_toString_iff :
    orientationIn query.toString = query.orientation ↔ OrientationClear query := by
  rw [orientationIn, OrientationClear]
  cases outer : query.orientation with
  | none => rw [Option.map_eq_none_iff, behind_eq_none_iff]
  | some value =>
      have plain := orientation_plain query outer
      constructor
      · intro found
        rcases Option.map_eq_some_iff.1 found with ⟨rest, first, ends⟩
        rcases (behind_eq_some_iff unbordered_orientation (by decide) _ _).1 first with
          ⟨before, fresh, whole⟩
        rcases (takeWhile_eq_iff plain rest).1 ends with ⟨after, rfl, stops⟩
        exact ⟨before, after, fresh, whole, stops⟩
      · rintro ⟨before, after, fresh, whole, ends⟩
        have first := (behind_eq_some_iff unbordered_orientation (by decide) _ _).2
          ⟨before, fresh, whole⟩
        rw [first, Option.map_some, (takeWhile_eq_iff plain _).2 ⟨after, rfl, ends⟩]

def noParams : Params :=
  fun _ => none

/-- Only a call of `getOritation` changes the parameters, and always in the same way. -/
theorem param_after {key : JString} {found : Option JString}
    (looked : ∀ params, analyData params query.toString key = found.or (params key))
    (calls : List Call) :
    Machine.after (call query) noParams calls key =
      if Call.getOritation ∈ calls then found else none := by
  induction calls using List.reverseRecOn with
  | nil => rfl
  | append_singleton calls last ih =>
      rw [Machine.after_append, Machine.after_cons, Machine.after_nil]
      cases last with
      | getUrl => simpa [call] using ih
      | getOritation =>
          refine (looked _).trans ?_
          rw [ih]
          split <;> simp

theorem extracts_getUrl (calls : List Call) :
    Extracts query (Machine.after (call query) noParams calls) .getUrl ↔
      Call.getOritation ∈ calls ∧ UrlClear query := by
  rw [Extracts, call, getUrl, param_after query fun params => analyData_url params _]
  split
  · next looked => rw [urlIn_toString_iff, and_iff_right looked]
  · next unlooked => simp [unlooked]

theorem extracts_getOritation (calls : List Call) :
    Extracts query (Machine.after (call query) noParams calls) .getOritation ↔
      OrientationClear query := by
  rw [Extracts, call, getOritation, analyData_orientation,
    param_after query fun params => analyData_orientation params _, ← orientationIn_toString_iff]
  split <;> simp

/-- All calls return what they are for exactly when the orientation is asked for before the url,
and the uri has no text which is taken for a parameter that is asked for. -/
theorem extracts_iff (calls : List Call) :
    Machine.Every (call query) (Extracts query) noParams calls ↔
      (∀ earlier later, calls = earlier ++ .getUrl :: later → .getOritation ∈ earlier) ∧
        (.getUrl ∈ calls → UrlClear query) ∧ (.getOritation ∈ calls → OrientationClear query) := by
  constructor
  · intro every
    refine ⟨?_, ?_, ?_⟩
    · intro earlier later split
      exact ((extracts_getUrl query earlier).1 (every earlier .getUrl later split)).1
    · intro asked
      rcases List.append_of_mem asked with ⟨earlier, later, split⟩
      exact ((extracts_getUrl query earlier).1 (every earlier .getUrl later split)).2
    · intro asked
      rcases List.append_of_mem asked with ⟨earlier, later, split⟩
      exact (extracts_getOritation query earlier).1 (every earlier .getOritation later split)
  · rintro ⟨ordered, url, orientation⟩ earlier asked later split
    have asks : asked ∈ calls := by simp [split]
    cases asked with
    | getUrl => exact (extracts_getUrl query earlier).2 ⟨ordered earlier later split, url asks⟩
    | getOritation => exact (extracts_getOritation query earlier).2 (orientation asks)

/-- The url has a parameter for the orientation, and the uri itself has none. -/
def nested : Query :=
  ⟨ascii ['a'], [], PARAMS_ORENTATION_KEY ++ equalsSign :: ascii ['v']⟩

theorem not_extracts_nested :
    ¬Machine.Every (call nested) (Extracts nested) noParams [.getOritation, .getUrl] := by
  intro every
  have first : (call nested noParams .getOritation).2 = nested.orientation :=
    every [] .getOritation [.getUrl] rfl
  exact absurd first (by decide)

end PvrAction

end AndroidCollection.Web
