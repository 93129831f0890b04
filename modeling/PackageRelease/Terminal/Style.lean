import PackageRelease.Text.Basic

/-! # Colours on a terminal

  A style is switched on by escape sequences and off by one. Where colours are not wanted, both
  are empty, so the text is the same apart from them.
-/

namespace PackageRelease

/-- A colour of a terminal. -/
inductive Hue where
  | red
  | green
  | yellow
  | blue
  | cyan
  deriving DecidableEq, Repr

/-- The number of a colour. -/
def Hue.code : Hue → Nat
  | .red => 1
  | .green => 2
  | .yellow => 3
  | .blue => 4
  | .cyan => 6

/-- How text looks. -/
structure Style where
  /-- Its colour. -/
  hue : Hue
  /-- Whether it is bold. -/
  bold : Bool
  deriving DecidableEq, Repr

namespace Style

/-- An escape sequence that sets a property of the following text. -/
def escape (code : String) : String := "\x1b[" ++ code ++ "m"

/-- What ends all styles. -/
def off (coloured : Bool) : String := if coloured then escape "0" else ""

/-- What begins a style, after ending all others. -/
def on (style : Style) (coloured : Bool) : String :=
  if coloured then
    escape "0" ++ (if style.bold then escape "1" else "") ++
      escape ("3" ++ Text.decimal style.hue.code)
  else ""

/-- A text in a style. -/
def paint (style : Style) (coloured : Bool) (text : String) : String :=
  style.on coloured ++ text ++ off coloured

end Style

/-- A line behind a mark that has a style. -/
def tagged (coloured : Bool) (mark : String) (style : Style) (text : String) : String :=
  style.paint coloured mark ++ " " ++ text ++ "\n" ++ Style.off coloured

/-- A line behind a mark, both in one colour and the mark bold. -/
def toned (coloured : Bool) (mark : String) (hue : Hue) (text : String) : String :=
  Style.paint ⟨hue, true⟩ coloured mark ++
    Style.paint ⟨hue, false⟩ coloured (" " ++ text ++ "\n")

end PackageRelease
