import AppLauncher.Config.Basic
import AppLauncher.Error
import AppLauncher.Log

/-!
# The window

What the launcher asks of a window: to be created once, to load a URL, to show an error.  A host answers each call
with success or an error.  Without a screen the calls are only written to the log.
-/

namespace AppLauncher.Window

/-- Title and size of a window. -/
structure Spec where
  title : String
  width : UInt32
  height : UInt32
  deriving DecidableEq, Repr

/-- The window that the settings ask for. -/
def Spec.ofSettings (s : WindowSettings) : Spec := ⟨s.title, s.width, s.height⟩

/-- The window of the default settings. -/
def Spec.default : Spec := .ofSettings {}

/-- A call to the host. -/
inductive Call
  | create (spec : Spec)
  | loadUrl (url : String)
  | showError (message : String)
  deriving DecidableEq, Repr

/-- A host: what each of its methods answers, `none` for success, and what it writes about a call. -/
structure Host where
  onCreate : Spec → Option LauncherError := fun _ => none
  onLoadUrl : String → Option LauncherError := fun _ => none
  onShowError : String → Option LauncherError := fun _ => none
  lines : Call → List Log.Line := fun _ => []

/-- What a host answers to a call. -/
def Host.answer (h : Host) : Call → Option LauncherError
  | .create spec => h.onCreate spec
  | .loadUrl url => h.onLoadUrl url
  | .showError message => h.onShowError message

/-- What the host without a screen writes about a call. -/
def headlessLine : Call → Log.Line
  | .create s =>
    Log.info ("Headless mode: window '" ++ s.title ++ "' (" ++ toString s.width ++ "x" ++ toString s.height
      ++ ") not shown")
  | .loadUrl url => Log.info ("Server available at " ++ url)
  | .showError message => Log.error ("Startup error: " ++ message)

/-- The host without a screen: every call succeeds and is written down. -/
def headless : Host := { lines := fun c => [headlessLine c] }

end AppLauncher.Window
