import AndroidCollection.Java.Text
import AndroidCollection.Lib.Machine
import Mathlib.Logic.Function.Basic

/-!
# One toast for all messages

`ToastUtil` keeps the first toast it makes and uses it again for every later message.
Only the text is set anew, in the view which the toast has at that time. The duration
is never set again, the position and the view stay when a call has set them, and an
image is added to the images before it. When a call brings its own view, the message is
set before the view is exchanged, so that it goes to the view which is taken away.

The calls are those on the main thread, where a second `Looper.prepare` throws. A toast
displays what its fields are when it is handed to the platform; a duration is the number
which is handed over. A view has a text for the message if it has a `TextView` with the
platform's id for it, and the images are those which its parent has got in front of its
other children. A text which is null is displayed as an empty one.
-/

namespace AndroidCollection.Ui

open Java

/-- The arguments of `setGravity`. -/
structure Position where
  gravity : ℤ
  xOffset : ℤ
  yOffset : ℤ
deriving DecidableEq, Repr

structure ViewContent where
  /-- The text for the message, if the view has one. -/
  message : Option JString
  isLinearLayout : Bool
  images : List ℤ
deriving DecidableEq, Repr

structure Toast where
  mDuration : ℤ
  position : Position
  /-- A view of the caller, or none for the one which the toast has been made with. -/
  mNextView : Option Ref
deriving DecidableEq, Repr

/-- The static fields, and the contents of the views. -/
structure ToastUtil where
  isShow : Bool
  mToast : Option Toast
  views : Option Ref → ViewContent

structure Shown where
  duration : ℤ
  position : Position
  view : Option Ref
  message : Option JString
  images : List ℤ
deriving DecidableEq, Repr

/-- What the platform gives: the position of a new toast, and the texts of the resources. -/
structure Platform where
  defaultPosition : Position
  getText : ℤ → JString

/-- A message is given as a text, which may be null, or as a resource. -/
inductive Message where
  | text (chars : Option JString)
  | resource (resId : ℤ)

def Message.read (platform : Platform) : Message → JString
  | .text chars => chars.getD []
  | .resource resId => platform.getText resId

namespace ToastUtil

def LENGTH_SHORT : ℤ :=
  0

def LENGTH_LONG : ℤ :=
  1

section Methods

variable (platform : Platform) (util : ToastUtil)

/-- `mToast = Toast.makeText(context, chars, duration)`. -/
def makeText (chars : JString) (duration : ℤ) : ToastUtil :=
  { util with
    mToast := some ⟨duration, platform.defaultPosition, none⟩
    views := Function.update util.views none ⟨some chars, true, []⟩ }

def withMessage (toast : Toast) (chars : JString) : ToastUtil :=
  { util with
    views := Function.update util.views toast.mNextView
      { util.views toast.mNextView with message := some chars } }

/-- Sets the text for the message in the view of the toast, or ends in a null pointer. -/
def setText (toast : Toast) (chars : JString) : Option ToastUtil :=
  if (util.views toast.mNextView).message.isSome then some (util.withMessage toast chars)
  else none

/-- How every method begins. -/
def prepare (chars : JString) (duration : ℤ) : Option ToastUtil :=
  match util.mToast with
  | none => some (util.makeText platform chars duration)
  | some toast => util.setText toast chars

def setView (view : Ref) : ToastUtil :=
  { util with mToast := util.mToast.map fun toast => { toast with mNextView := some view } }

def setGravity (position : Position) : ToastUtil :=
  { util with mToast := util.mToast.map fun toast => { toast with position := position } }

/-- Adds an image in front of the other children, or ends in a wrong cast. -/
def addImage (iconResId : ℤ) : Option ToastUtil := do
  let toast ← util.mToast
  let view := util.views toast.mNextView
  if view.isLinearLayout then
    some { util with
      views := Function.update util.views toast.mNextView
        { view with images := iconResId :: view.images } }
  else none

/-- `mToast.show()`. -/
def display : Option (ToastUtil × Option Shown) := do
  let toast ← util.mToast
  let view := util.views toast.mNextView
  some (util, some ⟨toast.mDuration, toast.position, toast.mNextView, view.message, view.images⟩)

def showText (message : Message) (duration : ℤ) : Option (ToastUtil × Option Shown) :=
  if util.isShow then (util.prepare platform (message.read platform) duration).bind display
  else some (util, none)

def showShort (message : Message) : Option (ToastUtil × Option Shown) :=
  util.showText platform message LENGTH_SHORT

def showLong (message : Message) : Option (ToastUtil × Option Shown) :=
  util.showText platform message LENGTH_LONG

/-- `show`, with a duration of one's own. -/
def showFor (message : Message) (duration : ℤ) : Option (ToastUtil × Option Shown) :=
  util.showText platform message duration

def customToastView (message : Option JString) (duration : ℤ) (view : Option Ref) :
    Option (ToastUtil × Option Shown) :=
  if util.isShow then do
    let prepared ← util.prepare platform (message.getD []) duration
    match view with
    | none => prepared.display
    | some view => (prepared.setView view).display
  else some (util, none)

def customToastGravity (message : Option JString) (duration : ℤ) (position : Position) :
    Option (ToastUtil × Option Shown) :=
  if util.isShow then do
    let prepared ← util.prepare platform (message.getD []) duration
    (prepared.setGravity position).display
  else some (util, none)

def showToastWithImageAndText (message : Option JString) (iconResId duration : ℤ)
    (position : Position) : Option (ToastUtil × Option Shown) :=
  if util.isShow then do
    let prepared ← util.prepare platform (message.getD []) duration
    let added ← (prepared.setGravity position).addImage iconResId
    added.display
  else some (util, none)

/-- The text is null when the toast is made. What is caught is followed by another exception. -/
def showSafe2 (text : Option JString) : Option (ToastUtil × Option Shown) :=
  match util.mToast with
  | none => (util.makeText platform [] LENGTH_SHORT).display
  | some toast => (util.setText toast (text.getD [])).bind display

end Methods

inductive Call where
  | showShort (message : Message)
  | showLong (message : Message)
  | showFor (message : Message) (duration : ℤ)
  | customToastView (message : Option JString) (duration : ℤ) (view : Option Ref)
  | customToastGravity (message : Option JString) (duration : ℤ) (position : Position)
  | showToastWithImageAndText (message : Option JString) (iconResId duration : ℤ)
      (position : Position)
  | showSafe2 (text : Option JString)

def perform (platform : Platform) (util : ToastUtil) : Call → Option (ToastUtil × Option Shown)
  | .showShort message => util.showShort platform message
  | .showLong message => util.showLong platform message
  | .showFor message duration => util.showFor platform message duration
  | .customToastView message duration view => util.customToastView platform message duration view
  | .customToastGravity message duration position =>
      util.customToastGravity platform message duration position
  | .showToastWithImageAndText message iconResId duration position =>
      util.showToastWithImageAndText platform message iconResId duration position
  | .showSafe2 text => util.showSafe2 platform text

inductive Outcome where
  | exception
  | silent
  | displayed (shown : Shown)
deriving DecidableEq, Repr

def react (platform : Platform) (util : ToastUtil) (call : Call) : ToastUtil × Outcome :=
  match util.perform platform call with
  | none => (util, .exception)
  | some (changed, none) => (changed, .silent)
  | some (changed, some shown) => (changed, .displayed shown)

/-! ## What a call asks for -/

/-- What a call is given. Only the view of the toast itself gets an image. -/
structure Request where
  chars : JString
  /-- The text of a new toast. -/
  initially : JString
  duration : ℤ
  view : Option Ref := none
  position : Option Position := none
  icon : Option ℤ := none
  apart : view = none ∨ icon = none := by first | exact Or.inl rfl | exact Or.inr rfl

def Call.request (platform : Platform) : Call → Request
  | .showShort message =>
      { chars := message.read platform, initially := message.read platform
        duration := LENGTH_SHORT }
  | .showLong message =>
      { chars := message.read platform, initially := message.read platform
        duration := LENGTH_LONG }
  | .showFor message duration =>
      { chars := message.read platform, initially := message.read platform, duration := duration }
  | .customToastView message duration view =>
      { chars := message.getD [], initially := message.getD [], duration := duration
        view := view }
  | .customToastGravity message duration position =>
      { chars := message.getD [], initially := message.getD [], duration := duration
        position := some position }
  | .showToastWithImageAndText message iconResId duration position =>
      { chars := message.getD [], initially := message.getD [], duration := duration
        position := some position, icon := some iconResId }
  | .showSafe2 text =>
      { chars := text.getD [], initially := [], duration := LENGTH_SHORT }

section Requests

variable (platform : Platform) (made : Ref → ViewContent)

/-- What a toast of its own would display, with the view of the caller as it has been made. -/
def asked (request : Request) : Shown where
  duration := request.duration
  position := request.position.getD platform.defaultPosition
  view := request.view
  message := some request.chars
  images :=
    match request.view with
    | none => request.icon.toList
    | some view => (made view).images

def Displays (util : ToastUtil) (call : Call) : Prop :=
  (util.react platform call).2 = .displayed (asked platform made (call.request platform))

/-- A new toast displays its message. One which has been used has the duration and, unless the call
sets it, the position of a new one. It has a text for the message; its view is its own and without
an image, or is exchanged for one which shows the message. -/
def Untouched (util : ToastUtil) (request : Request) : Prop :=
  match util.mToast with
  | none =>
      match request.view with
      | none => request.initially = request.chars
      | some view => (util.views (some view)).message = some request.chars
  | some toast =>
      (util.views toast.mNextView).message.isSome = true ∧ toast.mDuration = request.duration ∧
        (request.position = none → toast.position = platform.defaultPosition) ∧
        match request.view with
        | none => toast.mNextView = none ∧ (util.views none).images = []
        | some view =>
            toast.mNextView = some view ∨
              (util.views (some view)).message = some request.chars

/-- No toast has been made yet. -/
def loaded : ToastUtil :=
  ⟨true, none, fun view => view.elim ⟨none, false, []⟩ made⟩

/-! ## One method for all requests -/

/-- What comes after the message has been set. -/
def complete (request : Request) (prepared : ToastUtil) : Option (ToastUtil × Option Shown) := do
  let placed :=
    match request.position with
    | none => prepared
    | some position => prepared.setGravity position
  let viewed :=
    match request.view with
    | none => placed
    | some view => placed.setView view
  let added ←
    match request.icon with
    | none => some viewed
    | some icon => viewed.addImage icon
  added.display

def serve (util : ToastUtil) (request : Request) : Option (ToastUtil × Option Shown) :=
  (match util.mToast with
    | none => some (util.makeText platform request.initially request.duration)
    | some toast => util.setText toast request.chars).bind (complete request)

variable {platform made} {util : ToastUtil}

theorem perform_eq_serve (showing : util.isShow = true) (call : Call) :
    util.perform platform call = util.serve platform (call.request platform) := by
  have prepared : ∀ chars duration, util.prepare platform chars duration =
      match util.mToast with
      | none => some (util.makeText platform chars duration)
      | some toast => util.setText toast chars := fun _ _ => rfl
  cases call with
  | showShort message =>
      rw [perform, showShort, showText, if_pos showing, prepared]
      rfl
  | showLong message =>
      rw [perform, showLong, showText, if_pos showing, prepared]
      rfl
  | showFor message duration =>
      rw [perform, showFor, showText, if_pos showing, prepared]
      rfl
  | customToastView message duration view =>
      rw [perform, customToastView, if_pos showing, prepared]
      cases view <;> rfl
  | customToastGravity message duration position =>
      rw [perform, customToastGravity, if_pos showing, prepared]
      rfl
  | showToastWithImageAndText message iconResId duration position =>
      rw [perform, showToastWithImageAndText, if_pos showing, prepared]
      rfl
  | showSafe2 text =>
      rw [perform, showSafe2, serve]
      cases util.mToast <;> rfl

theorem displays_iff (showing : util.isShow = true) (call : Call) :
    Displays platform made util call ↔
      ∃ changed, util.serve platform (call.request platform) =
        some (changed, some (asked platform made (call.request platform))) := by
  rw [Displays, react, perform_eq_serve showing]
  cases served : util.serve platform (call.request platform) with
  | none => simp
  | some result =>
      rcases result with ⟨changed, shown⟩
      cases shown with
      | none => simp
      | some shown => simp

section Completion

variable {request : Request} {prepared : ToastUtil} {toast : Toast}
  (given : prepared.mToast = some toast)
include given

theorem complete_view {view : Ref} (brought : request.view = some view) :
    complete request prepared =
      some ({ prepared with
          mToast := some ⟨toast.mDuration, request.position.getD toast.position, some view⟩ },
        some ⟨toast.mDuration, request.position.getD toast.position, some view,
          (prepared.views (some view)).message, (prepared.views (some view)).images⟩) := by
  have iconless : request.icon = none :=
    request.apart.resolve_left (by rw [brought]; exact Option.some_ne_none view)
  cases position : request.position <;>
    simp [complete, display, setView, setGravity, brought, iconless, position, given]

/-- The toast keeps its own view, where an image comes before those from earlier. -/
theorem complete_own (plain : request.view = none) (own : toast.mNextView = none)
    (linear : (prepared.views none).isLinearLayout = true) :
    complete request prepared =
      some ({ prepared with
          mToast := some ⟨toast.mDuration, request.position.getD toast.position, none⟩
          views := Function.update prepared.views none
            { prepared.views none with
              images := request.icon.toList ++ (prepared.views none).images } },
        some ⟨toast.mDuration, request.position.getD toast.position, none,
          (prepared.views none).message,
          request.icon.toList ++ (prepared.views none).images⟩) := by
  rcases toast with ⟨duration, position, view⟩
  rcases prepared with ⟨isShow, mToast, views⟩
  cases own
  cases given
  have linear : (views none).isLinearLayout = true := linear
  cases icon : request.icon with
  | none =>
      cases moved : request.position <;> simp [complete, display, setGravity, plain, moved, icon]
  | some icon' =>
      cases moved : request.position <;>
        simp [complete, display, addImage, setGravity, plain, moved, icon, linear]

/-- A view of the caller stays until another one is brought. -/
theorem view_of_complete {view : Ref} (plain : request.view = none)
    (left : toast.mNextView = some view) {changed : ToastUtil} {shown : Shown}
    (completed : complete request prepared = some (changed, some shown)) :
    shown.view = some view := by
  rcases toast with ⟨duration, position, view⟩
  cases left
  cases icon : request.icon with
  | none =>
      cases moved : request.position <;>
        simp [complete, display, setGravity, plain, moved, icon, given] at completed
      · rw [← completed.2]
      · rw [← completed.2]
  | some icon' =>
      cases linear : (prepared.views (some view)).isLinearLayout <;>
        cases moved : request.position <;>
          simp [complete, display, addImage, setGravity, plain, moved, icon, given, linear]
            at completed
      · rw [← completed.2]
      · rw [← completed.2]

end Completion

/-! ## Requests which are served rightly -/

theorem withMessage_images (toast : Toast) (chars : JString) (view : Option Ref) :
    ((util.withMessage toast chars).views view).images = (util.views view).images := by
  by_cases current : view = toast.mNextView
  · simp [withMessage, current]
  · simp [withMessage, Function.update_of_ne current]

theorem withMessage_isLinearLayout (toast : Toast) (chars : JString) (view : Option Ref) :
    ((util.withMessage toast chars).views view).isLinearLayout =
      (util.views view).isLinearLayout := by
  by_cases current : view = toast.mNextView
  · simp [withMessage, current]
  · simp [withMessage, Function.update_of_ne current]

theorem withMessage_message (toast : Toast) (chars : JString) (view : Option Ref) :
    ((util.withMessage toast chars).views view).message =
      if view = toast.mNextView then some chars else (util.views view).message := by
  by_cases current : view = toast.mNextView
  · simp [withMessage, current]
  · simp [withMessage, current]

/-- Messages are shown, the view of the toast can take a message and an image, and the views of the
callers have got no image. -/
structure Usable (made : Ref → ViewContent) (util : ToastUtil) : Prop where
  showing : util.isShow = true
  message : util.mToast.isSome = true → (util.views none).message.isSome = true
  linear : util.mToast.isSome = true → (util.views none).isLinearLayout = true
  images : ∀ view, (util.views (some view)).images = (made view).images

theorem usable_loaded (made : Ref → ViewContent) : Usable made (loaded made) where
  showing := rfl
  message := fun given => by cases given
  linear := fun given => by cases given
  images := fun _ => rfl

variable {request : Request} (usable : Usable made util)
include usable

theorem usable_makeText (chars : JString) (duration : ℤ) :
    Usable made (util.makeText platform chars duration) where
  showing := usable.showing
  message := fun _ => rfl
  linear := fun _ => rfl
  images := fun view => by simpa [makeText] using usable.images view

theorem usable_withMessage (toast : Toast) (chars : JString) :
    Usable made (util.withMessage toast chars) where
  showing := usable.showing
  message := fun some_toast => by
    rw [withMessage_message]
    split
    · rfl
    · exact usable.message some_toast
  linear := fun some_toast => by
    rw [withMessage_isLinearLayout]
    exact usable.linear some_toast
  images := fun view => by
    rw [withMessage_images]
    exact usable.images view

theorem usable_toast (given : util.mToast.isSome = true) (toast : Toast) :
    Usable made { util with mToast := some toast } where
  showing := usable.showing
  message := fun _ => usable.message given
  linear := fun _ => usable.linear given
  images := usable.images

theorem usable_change (given : util.mToast.isSome = true) (toast : Toast) (images : List ℤ) :
    Usable made { util with
      mToast := some toast
      views := Function.update util.views none { util.views none with images := images } } where
  showing := usable.showing
  message := fun _ => by simpa using usable.message given
  linear := fun _ => by simpa using usable.linear given
  images := fun view => by simpa using usable.images view

end Requests

section Serving

variable {platform : Platform} {made : Ref → ViewContent} {util : ToastUtil} {request : Request}

theorem getD_position_eq_iff (first second : Position) :
    request.position.getD first = request.position.getD second ↔
      (request.position = none → first = second) := by
  cases request.position <;> simp

theorem exists_displayed_iff (changed : ToastUtil) (shown other : Shown) :
    (∃ reached, some (changed, some shown) = some (reached, some other)) ↔ shown = other := by
  constructor
  · rintro ⟨reached, same⟩
    exact Option.some.inj (Prod.mk.inj (Option.some.inj same)).2
  · rintro rfl
    exact ⟨changed, rfl⟩

section Completed

variable {prepared : ToastUtil} {toast : Toast} (given : prepared.mToast = some toast)
  (usable : Usable made prepared)
include given usable

/-- After the message has been set, what is displayed is right when the fields of the toast and the
view are. -/
theorem complete_iff :
    (∃ changed, complete request prepared = some (changed, some (asked platform made request))) ↔
      toast.mDuration = request.duration ∧
        (request.position = none → toast.position = platform.defaultPosition) ∧
        match request.view with
        | none =>
            toast.mNextView = none ∧ (prepared.views none).message = some request.chars ∧
              (prepared.views none).images = []
        | some view => (prepared.views (some view)).message = some request.chars := by
  have some_toast : prepared.mToast.isSome = true := Option.isSome_of_eq_some given
  cases brought : request.view with
  | none =>
      cases left : toast.mNextView with
      | none =>
          rw [complete_own given brought left (usable.linear some_toast), exists_displayed_iff]
          simp [asked, brought, getD_position_eq_iff]
      | some view =>
          refine iff_of_false ?_ (by simp)
          rintro ⟨changed, completed⟩
          have other := view_of_complete given brought left completed
          simp [asked, brought] at other
  | some view =>
      rw [complete_view given brought, exists_displayed_iff]
      simp [asked, brought, getD_position_eq_iff, usable.images view]

theorem usable_of_complete {changed : ToastUtil}
    (completed : complete request prepared =
      some (changed, some (asked platform made request))) : Usable made changed := by
  have some_toast : prepared.mToast.isSome = true := Option.isSome_of_eq_some given
  cases brought : request.view with
  | none =>
      cases left : toast.mNextView with
      | none =>
          rw [complete_own given brought left (usable.linear some_toast)] at completed
          rw [← (Prod.mk.inj (Option.some.inj completed)).1]
          exact usable_change usable some_toast _ _
      | some view =>
          have other := view_of_complete given brought left completed
          simp [asked, brought] at other
  | some view =>
      rw [complete_view given brought] at completed
      rw [← (Prod.mk.inj (Option.some.inj completed)).1]
      exact usable_toast usable some_toast _

end Completed

theorem serve_of_none (given : util.mToast = none) :
    util.serve platform request =
      complete request (util.makeText platform request.initially request.duration) := by
  rw [serve, given]
  rfl

theorem serve_of_some {toast : Toast} (given : util.mToast = some toast) :
    util.serve platform request = (util.setText toast request.chars).bind (complete request) := by
  rw [serve, given]

variable (usable : Usable made util)
include usable

theorem serve_iff :
    (∃ changed, util.serve platform request =
        some (changed, some (asked platform made request))) ↔
      util.Untouched platform request := by
  cases given : util.mToast with
  | none =>
      rw [serve_of_none given, complete_iff rfl (usable_makeText usable _ _)]
      simp only [Untouched, given]
      cases request.view with
      | none => simp [makeText]
      | some view => simp [makeText]
  | some toast =>
      rw [serve_of_some given]
      simp only [Untouched, given]
      by_cases takes : (util.views toast.mNextView).message.isSome = true
      · have kept : (util.withMessage toast request.chars).mToast = some toast := given
        rw [setText, if_pos takes, Option.bind_some,
          complete_iff kept (usable_withMessage usable _ _), and_iff_right takes]
        cases request.view with
        | none =>
            cases own : toast.mNextView with
            | none => simp [withMessage_message, withMessage_images, own]
            | some view => simp
        | some view =>
            by_cases current : some view = toast.mNextView
            · simp [withMessage_message, ← current]
            · simp [withMessage_message, current, Ne.symm current]
      · rw [setText, if_neg takes]
        simp [takes]

theorem usable_of_serve {changed : ToastUtil}
    (served : util.serve platform request = some (changed, some (asked platform made request))) :
    Usable made changed := by
  cases given : util.mToast with
  | none =>
      rw [serve_of_none given] at served
      exact usable_of_complete rfl (usable_makeText usable _ _) served
  | some toast =>
      rw [serve_of_some given, setText] at served
      split at served
      · have kept : (util.withMessage toast request.chars).mToast = some toast := given
        exact usable_of_complete kept (usable_withMessage usable _ _) served
      · cases served

/-! ## Runs -/

theorem displays_iff_untouched (call : Call) :
    Displays platform made util call ↔ util.Untouched platform (call.request platform) := by
  rw [displays_iff usable.showing, serve_iff usable]

theorem usable_react {call : Call}
    (untouched : util.Untouched platform (call.request platform)) :
    Usable made (util.react platform call).1 := by
  rcases (serve_iff usable).2 untouched with ⟨changed, served⟩
  rw [react, perform_eq_serve usable.showing, served]
  exact usable_of_serve usable served

end Serving

end ToastUtil

end AndroidCollection.Ui
