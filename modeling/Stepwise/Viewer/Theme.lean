import Stepwise.Screen

/-!
# Colours of the viewer
-/

set_option autoImplicit false

namespace Stepwise.Theme

def plain : Color := .rgb 205 214 244

/-- Accents: brackets, keywords, the step counter. -/
def primary : Color := .rgb 137 180 250

/-- Highlights: the current line, texts and numbers. -/
def secondary : Color := .rgb 250 179 135

/-- Comments and everything else of little weight. -/
def muted : Color := .rgb 108 112 134

def success : Color := .rgb 166 227 161

def error : Color := .rgb 243 139 168

/-- Called functions and the border of the pane in focus. -/
def accent : Color := .rgb 249 226 175

/-- The background of the current line and the status bar. -/
def highlight : Color := .rgb 50 50 70

def typeName : Color := .rgb 148 226 213

def stack : Color := .rgb 203 166 247

def queue : Color := .rgb 148 226 213

def array : Color := .rgb 250 179 135

def list : Color := .rgb 166 227 161

def mutedStyle : Style := { fg := muted }

end Stepwise.Theme
