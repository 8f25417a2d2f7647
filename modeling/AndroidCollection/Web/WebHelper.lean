import AndroidCollection.Java.Basic

/-!
# The file chooser of the web view

A page which wants a file hands a callback to `WebHelper`, which shows a dialog.
The dialog starts the camera or the gallery, or it is cancelled or dismissed; the
callback is answered when the dialog is closed without a choice, or when the
result of the started activity comes in. There is one callback of each of two
kinds, for a single `Uri` and for an array.

The state has the dialogs which are shown and the request codes of the activities
whose results are awaited. Closing a dialog calls its dismiss listener.
-/

namespace AndroidCollection.Web

open Java

def CHOOSER_GALLERY_REQUEST_CODE : ℤ := 10

def CHOOSER_CAMERA_REQUEST_CODE : ℤ := 11

/-- `Activity.RESULT_OK`. -/
def RESULT_OK : ℤ := -1

/-- `Activity.RESULT_CANCELED`. -/
def RESULT_CANCELED : ℤ := 0

/-- An intent with its data, or null. -/
abbrev Intent := Option (Option Ref)

structure WebHelper where
  /-- `mContext instanceof FragmentActivity`. -/
  isFragmentActivity : Bool
  uploadFile : Option Ref
  uploadFiles : Option Ref
  mFileChooserParams : Option Ref
  mUri : Option Ref
  dialogs : List ℕ
  /-- The number of the next dialog. -/
  next : ℕ
  awaited : List ℤ

inductive Effect where
  /-- `uploadFile.onReceiveValue(value)`. -/
  | receiveFile (callback : Ref) (value : Option Ref)
  /-- `uploadFiles.onReceiveValue(value)`; the value is null or an array. -/
  | receiveFiles (callback : Ref) (value : Option (List (Option Ref)))
  /-- The gallery, with the parameters from which its intent is made, if any. -/
  | startGallery (params : Option Ref)
  /-- The camera, with the place for the picture. -/
  | startCamera (output : Option Ref)
  | toast
deriving DecidableEq, Repr

inductive Throwable where
  | illegalArgumentException
  | nullPointerException
  /-- An activity cannot be started. -/
  | startFailed
deriving DecidableEq, Repr

structure Output where
  effects : List Effect := []
  thrown : Option Throwable := none
deriving DecidableEq, Repr

namespace WebHelper

def initial (isFragmentActivity : Bool) : WebHelper where
  isFragmentActivity := isFragmentActivity
  uploadFile := none
  uploadFiles := none
  mFileChooserParams := none
  mUri := none
  dialogs := []
  next := 0
  awaited := []

def setUploadFile (helper : WebHelper) (uploadFile : Option Ref) : WebHelper :=
  { helper with uploadFile := uploadFile }

def setUploadFiles (helper : WebHelper) (uploadFiles : Option Ref) : WebHelper :=
  { helper with uploadFiles := uploadFiles }

def setFileChooserParams (helper : WebHelper) (fileChooserParams : Option Ref) : WebHelper :=
  { helper with mFileChooserParams := fileChooserParams }

def showOptions (helper : WebHelper) : WebHelper × Output :=
  if helper.isFragmentActivity then
    ({ helper with dialogs := helper.dialogs ++ [helper.next], next := helper.next + 1 }, {})
  else
    (helper, { thrown := some .illegalArgumentException })

/-- Hands the values to the callbacks which are set, and clears them. -/
def receive (helper : WebHelper) (file : Option Ref) (files : Option (List (Option Ref))) :
    WebHelper × Output :=
  ({ helper with uploadFile := none, uploadFiles := none },
    { effects := (helper.uploadFile.toList.map fun callback => .receiveFile callback file) ++
        helper.uploadFiles.toList.map fun callback => .receiveFiles callback files })

def onActivityForResult (helper : WebHelper) (requestCode resultCode : ℤ) (intent : Intent) :
    WebHelper × Output :=
  if resultCode = RESULT_OK then
    if requestCode = CHOOSER_GALLERY_REQUEST_CODE then
      match intent with
      | some data => helper.receive data (some [data])
      | none =>
          if helper.uploadFile = none ∧ helper.uploadFiles = none then (helper, {})
          else (helper, { thrown := some .nullPointerException })
    else if requestCode = CHOOSER_CAMERA_REQUEST_CODE then
      helper.receive helper.mUri (some [helper.mUri])
    else (helper, {})
  else if resultCode = RESULT_CANCELED then helper.receive none none
  else (helper, {})

/-- The place for the picture is missing when there is no directory or no content provider for
it, and the activity does not start when there is no camera. -/
def realOpenCamera (helper : WebHelper) (uri : Option Ref) (starts : Bool) :
    WebHelper × Output :=
  match uri with
  | none => (helper, { thrown := some .startFailed })
  | some uri =>
      let placed := { helper with mUri := some uri }
      if starts then
        ({ placed with awaited := helper.awaited ++ [CHOOSER_CAMERA_REQUEST_CODE] },
          { effects := [.startCamera (some uri)] })
      else
        (placed, { thrown := some .startFailed })

def openCamera (helper : WebHelper) (granted : Bool) (uri : Option Ref) (starts : Bool) :
    WebHelper × Output :=
  if granted then helper.realOpenCamera uri starts
  else (helper, { effects := [.toast] })

def openGallery (helper : WebHelper) (starts : Bool) : WebHelper × Output :=
  if starts then
    ({ helper with awaited := helper.awaited ++ [CHOOSER_GALLERY_REQUEST_CODE] },
      { effects := [.startGallery helper.mFileChooserParams] })
  else
    (helper, { thrown := some .startFailed })

end WebHelper

/-! ## The dialog -/

/-- A click in the dialog, with what the platform answers. -/
inductive Choice where
  | tv_camera (granted : Bool) (uri : Option Ref) (starts : Bool)
  | tv_photo (starts : Bool)
  | tv_cancel
deriving DecidableEq, Repr

/-- The dismiss listener of `FileChooserDialog`. -/
def onDismiss (helper : WebHelper) (hasOptions : Bool) : WebHelper × Output :=
  if !hasOptions then helper.onActivityForResult 0 RESULT_CANCELED none
  else (helper, {})

/-- The dialog is closed, and its dismiss listener called. -/
def dismiss (helper : WebHelper) (dialog : ℕ) (hasOptions : Bool) : WebHelper × Output :=
  onDismiss { helper with dialogs := helper.dialogs.erase dialog } hasOptions

def choose (helper : WebHelper) : Choice → WebHelper × Output
  | .tv_camera granted uri starts => helper.openCamera granted uri starts
  | .tv_photo starts => helper.openGallery starts
  | .tv_cancel => helper.onActivityForResult 0 RESULT_CANCELED none

/-- `FileChooserDialog.onClick`: an exception leaves the dialog as it is. -/
def onClick (helper : WebHelper) (dialog : ℕ) (choice : Choice) : WebHelper × Output :=
  match choose helper choice with
  | (chosen, output) =>
      match output.thrown with
      | some _ => (chosen, output)
      | none =>
          let dismissed := dismiss chosen dialog true
          (dismissed.1, { dismissed.2 with effects := output.effects ++ dismissed.2.effects })

/-! ## Runs -/

inductive Input where
  | openFileChooser (uploadMsg : Ref)
  | onShowFileChooser (filePathCallback : Ref) (fileChooserParams : Option Ref)
  | click (dialog : ℕ) (choice : Choice)
  /-- The dialog is dismissed from outside. -/
  | dismissed (dialog : ℕ)
  | onActivityResult (requestCode resultCode : ℤ) (data : Intent)

open WebHelper in
def react (helper : WebHelper) : Input → WebHelper × Output
  | .openFileChooser uploadMsg => (helper.setUploadFile (some uploadMsg)).showOptions
  | .onShowFileChooser filePathCallback fileChooserParams =>
      ((helper.setUploadFiles (some filePathCallback)).setFileChooserParams
        fileChooserParams).showOptions
  | .click dialog choice =>
      if dialog ∈ helper.dialogs then onClick helper dialog choice else (helper, {})
  | .dismissed dialog =>
      if dialog ∈ helper.dialogs then dismiss helper dialog false else (helper, {})
  | .onActivityResult requestCode resultCode data =>
      { helper with awaited := helper.awaited.erase requestCode }.onActivityForResult requestCode
        resultCode data

end AndroidCollection.Web
