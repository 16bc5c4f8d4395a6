import HiFetch.AdvancedDisplay.Drawing
import HiFetch.Library.Transition

/-!
# Widgets

A display has up to 64 widgets, each a box with a title in its first line and a text in it.
`render_display` clears the screen and writes one widget after the other, so a later one covers an
earlier one; with an animated theme it adds one of four characters that turn.

The codes of three themes have more than 15 characters, so they are cut and do not fit into
`ansi_code` with the NUL that ends them.  One of the three is the theme that `display_init` loads.
What is shown is stated for a theme whose code fits.

The counter of the turns is static, so `create_loading_animation` turns the characters of later
frames too.  It is an `int`, whose bound is left out.
-/

namespace HiFetch.AdvancedDisplay

open Screen Transition

/-- The colour of the boxes, and the flag of the animation. -/
structure Theme where
  primary : List Char
  animationEnabled : Bool

structure Widget where
  x : ℤ
  y : ℤ
  width : ℤ
  height : ℤ
  title : List Char
  content : List Char
  borderColor : List Char
  isVisible : Bool
  hasBorder : Bool

/-- `widgets` are the first `widget_count` ones. -/
structure DisplayManager where
  widgets : List Widget
  currentTheme : Theme
  terminalWidth : ℤ
  animationFrame : ℕ

/-- A new widget; nothing writes its content, which `display_init` has cleared. -/
def newWidget (theme : Theme) (x y w h : ℤ) (title : List Char) : Widget where
  x := x
  y := y
  width := w
  height := h
  title := title
  content := []
  borderColor := theme.primary
  isVisible := true
  hasBorder := true

def createWidget (dm : DisplayManager) (x y w h : ℤ) (title : List Char) : DisplayManager :=
  if 64 ≤ dm.widgets.length then dm
  else { dm with widgets := dm.widgets ++ [newWidget dm.currentTheme x y w h title] }

def renderWidget (widget : Widget) : List Char :=
  (if widget.hasBorder then
    drawBox widget.x widget.y widget.width widget.height widget.borderColor 1
  else []) ++
    (moveCursor (widget.x + 2) widget.y ++
      (setColor widget.borderColor ++ ('[' :: (widget.title ++ [']'])))) ++
    (moveCursor (widget.x + 1) (widget.y + 1) ++ widget.content)

def loadingChars (frame : ℕ) : Char := ['|', '/', '-', '\\'].getD (frame % 4) ' '

/-- What is written; the counter is increased. -/
def createLoadingAnimation (frame : ℕ) (x y : ℤ) : List Char :=
  moveCursor x y ++ [loadingChars frame]

/-- What `render_display` writes; `frame` is the static counter of the animation. -/
def renderText (dm : DisplayManager) (frame : ℕ) : List Char :=
  clearScreen ++ (dm.widgets.filter Widget.isVisible).flatMap renderWidget ++
    if dm.currentTheme.animationEnabled then
      createLoadingAnimation frame (dm.terminalWidth - 10) 1
    else []

/-- What it leaves in the display. -/
def nextFrame (dm : DisplayManager) : DisplayManager :=
  if dm.currentTheme.animationEnabled then
    { dm with animationFrame := (dm.animationFrame + 1) % 30 }
  else dm

/-! ## What is shown -/

/-- A widget on the screen. -/
def Widget.picture (widget : Widget) : Picture :=
  (Picture.line (widget.y.toNat + 1) (widget.x.toNat + 1) widget.content).atop
    ((Picture.line widget.y.toNat (widget.x.toNat + 2) ('[' :: (widget.title ++ [']']))).atop
      (if widget.hasBorder then
        frame widget.x.toNat widget.y.toNat widget.width.toNat widget.height.toNat (border 1)
      else .empty))

/-- The code of the theme is a colour, with room for its NUL. -/
structure Theme.Fits (theme : Theme) : Prop where
  colour : IsColour theme.primary
  room : theme.primary.length ≤ 15

/-- There is room for the box, the title and the text, on the screen and in `title`. -/
structure Widget.Fits (size : Size) (widget : Widget) : Prop where
  x : 0 ≤ widget.x
  y : 0 ≤ widget.y
  width : 2 ≤ widget.width
  height : 2 ≤ widget.height
  right : widget.x + widget.width ≤ size.columns
  bottom : widget.y + widget.height ≤ size.rows
  title : ∀ glyph ∈ widget.title, Printable glyph
  titleRoom : widget.x + 4 + widget.title.length ≤ size.columns
  titleSize : (String.ofList widget.title).utf8ByteSize ≤ 63
  content : ∀ glyph ∈ widget.content, Printable glyph
  contentRoom : widget.x + 1 + widget.content.length ≤ size.columns

/-- The animation, above everything else. -/
def spinner (dm : DisplayManager) (frame : ℕ) : Picture :=
  if dm.currentTheme.animationEnabled then
    .line 1 (dm.terminalWidth - 10).toNat [loadingChars frame]
  else .empty

/-- What a display shows: its widgets, the last one on top, and the animation. -/
def DisplayManager.picture (dm : DisplayManager) (frame : ℕ) : Picture :=
  (spinner dm frame).atop (.stack ((dm.widgets.filter Widget.isVisible).map Widget.picture))

/-- The display is one of this terminal. -/
structure DisplayManager.Fits (size : Size) (dm : DisplayManager) : Prop where
  widgets : ∀ widget ∈ dm.widgets, widget.Fits size ∧ IsColour widget.borderColor
  rows : 2 ≤ size.rows
  terminalWidth : dm.terminalWidth = size.columns
  columns : 10 ≤ size.columns

inductive Action where
  | createWidget (x y w h : ℤ) (title : List Char)
  | createLoadingAnimation (x y : ℤ)
  | render

/-- A display, the counter of the animation, and the terminal that receives the text. -/
structure Session where
  dm : DisplayManager
  frame : ℕ
  terminal : Terminal

def sessionStep (size : Size) (session : Session) : Action → Session
  | .createWidget x y w h title => { session with dm := createWidget session.dm x y w h title }
  | .createLoadingAnimation x y =>
      { session with
        frame := session.frame + 1
        terminal := session.terminal.receiveAll size (createLoadingAnimation session.frame x y) }
  | .render =>
      { dm := nextFrame session.dm
        frame := if session.dm.currentTheme.animationEnabled then session.frame + 1
          else session.frame
        terminal := session.terminal.receiveAll size (renderText session.dm session.frame) }

/-- The widgets that some calls ask for. -/
def requested (theme : Theme) (actions : List Action) : List Widget :=
  actions.filterMap fun action ↦
    match action with
    | .createWidget x y w h title => some (newWidget theme x y w h title)
    | .createLoadingAnimation .. => none
    | .render => none

/-- How often some calls turn the animation. -/
def turns (theme : Theme) (actions : List Action) : ℕ :=
  actions.countP fun action ↦
    match action with
    | .createWidget .. => false
    | .createLoadingAnimation .. => true
    | .render => theme.animationEnabled

/-- What is drawn has room on the screen. -/
def Action.Fits (size : Size) (theme : Theme) : Action → Prop
  | .createWidget x y w h title => (newWidget theme x y w h title).Fits size
  | .createLoadingAnimation x y => 0 ≤ x ∧ x < size.columns ∧ 0 ≤ y ∧ y < size.rows
  | .render => True

/-- What a session is after some calls. -/
structure Session.After (size : Size) (theme : Theme) (actions : List Action) (session : Session) :
    Prop where
  widgets : session.dm.widgets = (requested theme actions).take 64
  currentTheme : session.dm.currentTheme = theme
  terminalWidth : session.dm.terminalWidth = size.columns
  frame : session.frame = turns theme actions
  mode : session.terminal.mode = .text

theorem fits_requested {size : Size} {theme : Theme} {actions : List Action}
    (h : ∀ action ∈ actions, action.Fits size theme) :
    ∀ widget ∈ requested theme actions, widget.Fits size := by
  intro widget hwidget
  obtain ⟨action, hmem, hnew⟩ := List.mem_filterMap.1 hwidget
  have hfits := h action hmem
  cases action with
  | createWidget x y w h title =>
    cases hnew
    exact hfits
  | createLoadingAnimation x y => cases hnew
  | render => cases hnew

/-- The display of a session, if every requested widget fits. -/
theorem Session.After.fits {size : Size} {theme : Theme} {actions : List Action} {session : Session}
    (h : session.After size theme actions) (hcolor : IsColour theme.primary)
    (hrows : 2 ≤ size.rows) (hcolumns : 10 ≤ size.columns)
    (hfits : ∀ action ∈ actions, action.Fits size theme) : session.dm.Fits size where
  widgets widget hwidget := by
    rw [h.widgets] at hwidget
    have hrequested := List.mem_of_mem_take hwidget
    refine ⟨fits_requested hfits widget hrequested, ?_⟩
    obtain ⟨action, -, hnew⟩ := List.mem_filterMap.1 hrequested
    cases action with
    | createWidget x y w h title =>
      cases hnew
      exact hcolor
    | createLoadingAnimation x y => cases hnew
    | render => cases hnew
  rows := hrows
  terminalWidth := h.terminalWidth
  columns := hcolumns

/-- What is to be seen after some calls: the first 64 widgets that have been asked for, and the
animation turned as often as it was drawn. -/
def shown (size : Size) (theme : Theme) (actions : List Action) : Picture :=
  DisplayManager.picture
    { widgets := (requested theme actions).take 64
      currentTheme := theme
      terminalWidth := size.columns
      animationFrame := 0 }
    (turns theme actions)

end HiFetch.AdvancedDisplay
