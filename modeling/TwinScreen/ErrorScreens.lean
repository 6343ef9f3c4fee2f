import TwinScreen.Diagnostic
import TwinScreen.Frame
import TwinScreen.Screen.Drawing

/-!
# Error screens

Both screens of a diagnostic are drawn once. Presenting them combines the two in the compositor,
which is first prepared for software rendering if it is stale, and hands the image to an output: a
recorder or the surface of a window.
-/
namespace TwinScreen

structure ErrorScreens where
  diagnostic : Diagnostic
  top : Pixmap
  bottom : Pixmap

namespace ErrorScreens

/-- Draws the screens of a diagnostic: the summary on the top screen, the remediation on the bottom
screen. -/
def draw (diagnostic : Diagnostic) (settings : Settings) :
    Except Fault (ErrorScreens × List Notice) := do
  let fonts ← Fonts.load settings.sizes
  let top ← Screen.top.drawEmbedded diagnostic.summary.toList fonts settings
  let bottom ← Screen.bottom.drawEmbedded diagnostic.remediation.toList fonts settings
  return (⟨diagnostic, top, bottom⟩, [.drawing diagnostic.summary])

def refresh : Step Compositor (List Notice) := do
  if (← get).stale then
    return [← Compositor.prepare .software]
  else
    return []

def compose (screens : ErrorScreens) : Step Compositor (Frame × List Notice) := do
  let notices ← refresh
  Compositor.clear
  Compositor.combine screens.top screens.bottom
  return (← Frame.ofPixmap (← get).image, notices)

/-- Combines the screens and hands the frame to an output. -/
def present {σ : Type} (output : Frame → Step σ (List Notice)) (screens : ErrorScreens) :
    Step (Compositor × σ) (List Notice) := do
  let (frame, notices) ← Step.within Prod.fst (fun s c => (c, s.2)) (compose screens)
  let more ← Step.within Prod.snd (fun s o => (s.1, o)) (output frame)
  return notices ++ more

def presentToRecorder (screens : ErrorScreens) : Step (Compositor × Recorder) (List Notice) :=
  screens.present fun frame => do
    Recorder.record frame
    return []

def presentToSurface (screens : ErrorScreens) : Step (Compositor × Surface) (List Notice) :=
  screens.present Surface.present

end ErrorScreens

end TwinScreen
