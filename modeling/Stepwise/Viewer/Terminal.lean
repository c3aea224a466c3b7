import Stepwise.Viewer

/-!
# The viewer on a terminal

A screen as a text that a terminal shows, and the keys that a typed line stands for.  A line is read
key by key: `<` and `>` step, `^` and `v` scroll, `t` moves the focus, `g` and `G` go to the start
and the end, and every other character is the key with that character on it.  An empty line steps
forward.
-/

set_option autoImplicit false

namespace Stepwise.Terminal

/-- The control sequence with the given numbers. -/
def sequence (codes : List Nat) : String :=
  "\x1b[" ++ String.intercalate ";" (codes.map toString) ++ "m"

/-- The numbers that choose a colour, where `base` is that of a colour of the terminal's own. -/
def colorCodes (base : Nat) : Color → List Nat
  | .default => []
  | .black => [base]
  | .white => [base + 7]
  | .rgb red green blue => [base + 8, 2, red, green, blue]

/-- The control sequence that chooses a style. -/
def styleText (s : Style) : String :=
  sequence ([0] ++ (if s.bold then [1] else []) ++ (if s.reversed then [7] else [])
    ++ colorCodes 30 s.fg ++ colorCodes 40 s.bg)

def rowText (row : Row) : String :=
  String.join ((Row.runs row).map fun run => styleText run.style ++ run.text) ++ sequence [0]
    ++ "\n"

/-- A screen in place of what the terminal showed before. -/
def screenText (screen : Screen) : String :=
  "\x1b[2J\x1b[H" ++ String.join (screen.map rowText)

def key (c : Char) : Key :=
  match c with
  | '<' => .left
  | '>' => .right
  | '^' => .up
  | 'v' => .down
  | 't' => .tab
  | 'G' => .enter
  | 'g' => .backspace
  | c => .char c

def keys (line : String) : List Key :=
  match line.toList.filter (fun c => c ≠ '\n' && c ≠ '\r') with
  | [] => [.right]
  | cs => cs.map key

end Stepwise.Terminal
