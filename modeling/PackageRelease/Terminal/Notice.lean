import PackageRelease.Registry.Token
import PackageRelease.Terminal.Style

/-! # Notices

  What a command has to say is a list of notices. A notice knows its form; whether it is shown,
  where it goes and how it looks is decided when the list is printed. So asking for more or less
  output changes what is printed and nothing else.
-/

namespace PackageRelease

/-- How much is to be shown. -/
structure Verbosity where
  /-- Whether details are asked for. -/
  verbose : Bool
  /-- Whether only failures and data are asked for. -/
  quiet : Bool
  deriving DecidableEq, Repr

/-- Something that a command has to say. -/
inductive Notice where
  /-- A plain statement. -/
  | info (text : String)
  /-- Something succeeded. -/
  | success (text : String)
  /-- Something may be wrong. -/
  | warning (text : String)
  /-- Something failed. -/
  | failure (text : String)
  /-- A detail for those who ask for it. -/
  | detail (text : String)
  /-- A heading. -/
  | heading (text : String)
  /-- A line below another one. -/
  | item (text : String)
  /-- A line as it is. -/
  | line (text : String)
  /-- What to do about a failure, for those who ask for details. -/
  | advice (suggestions : List String)
  /-- A result for other programs. -/
  | data (text : String)
  deriving DecidableEq, Repr

/-- Where a notice goes. -/
inductive Channel where
  | output
  | error
  deriving DecidableEq, Repr

namespace Notice

/-- Where a notice goes. -/
def channel : Notice → Channel
  | .failure _ => .error
  | _ => .output

/-- Whether a notice is shown. -/
def isShown (v : Verbosity) : Notice → Bool
  | .failure _ | .data _ => true
  | .detail _ | .advice _ => v.verbose && !v.quiet
  | _ => !v.quiet

/-- A line below another one. -/
def indent (text : String) : String := "    " ++ text ++ "\n"

/-- What a notice looks like. -/
def draw (coloured : Bool) : Notice → String
  | .info text => tagged coloured "ℹ" ⟨.cyan, false⟩ text
  | .success text => tagged coloured "✓" ⟨.green, true⟩ text
  | .warning text => toned coloured "⚠" .yellow text
  | .failure text => toned coloured "✗" .red text
  | .detail text => tagged coloured "→" ⟨.blue, false⟩ text
  | .heading text => "\n" ++ Style.paint ⟨.cyan, true⟩ coloured ("═══ " ++ text ++ " ═══\n")
  | .item text => indent text
  | .line text => text ++ "\n"
  | .advice suggestions =>
    "\n💡 Recovery suggestions:\n" ++
      Text.join "" (suggestions.map fun suggestion => indent ("• " ++ suggestion))
  | .data text => text ++ "\n"

/-- What is printed to a channel. -/
def printed (v : Verbosity) (coloured : Bool) (channel : Channel) (notices : List Notice) : String :=
  Text.join "" ((notices.filter fun notice => notice.channel = channel && notice.isShown v).map
    (draw coloured))

end Notice

/-- Whether a terminal shows colours. -/
def Environment.showsColours (environment : Environment) : Bool :=
  (environment.value? "TERM").any (· ≠ "dumb") && (environment.value? "NO_COLOR").isNone

end PackageRelease
