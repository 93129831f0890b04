import PackageRelease.FileSystem.Operations
import PackageRelease.Glob.Pattern

/-! # Finding paths by a pattern

  The components of a pattern are matched one directory at a time. A component without wildcards
  is not looked up in a listing: its name is appended and has to exist, so it may be `..` or lead
  through a link. `**` goes into every directory below, linked ones included; at the end of a
  pattern it stands for the directories themselves.

  Every step goes one component further or one directory deeper. A chain of links ends after a
  bounded number of them, so the number of steps on one way is bounded too.
-/

namespace PackageRelease.Glob

/-- The components of a pattern and whether only directories are asked for. -/
structure Query where
  /-- The directory where the search starts. -/
  start : Path
  /-- One pattern for each component. -/
  components : List Pattern
  /-- Whether the pattern ends in a slash. -/
  directoriesOnly : Bool
  deriving DecidableEq, Repr

/-- Reads a pattern. The text as a whole has to be a pattern, and so has each component. -/
def Query.parse (text : String) : Except Fault Query := do
  let cs := text.toList
  discard (Pattern.parse cs)
  let rooted := cs.head? = some '/'
  let pieces := Text.splitWhere (· == '/') (if rooted then cs.drop 1 else cs)
  -- nothing stands behind a slash at the end
  let pieces := if pieces.getLast? = some [] then pieces.dropLast else pieces
  let components ← pieces.mapM Pattern.parse
  return {
    start := ⟨if rooted then "/" else "."⟩
    components := if rooted ∧ cs.length = 1 then [[]] else components
    directoriesOnly := cs.getLast? = some '/' }

/-- The path of a name in a directory; the name alone in the directory where the search starts. -/
def childPath (here : Path) (name : String) : Path :=
  if here.components = [.current] then ⟨name⟩ else here.join ⟨name⟩

/-- The component patterns behind the leading ones for any number of directories. -/
def afterRecursive (patterns : List Pattern) : List Pattern :=
  patterns.dropWhile Pattern.isRecursive

/-- The paths below `here` that the patterns stand for, `steps` at most from here. -/
def expand (fs : FileSystem) (directoriesOnly : Bool) :
    Nat → List Pattern → Path → List Path
  | 0, _, _ => []
  | _, [], _ => []
  | steps + 1, pattern :: rest, here =>
    let isDirectory := fs.isDirectory here
    -- a path that needs no further look at its last name
    let accepted (path : Path) : List Path :=
      if rest.isEmpty then
        if directoriesOnly && !fs.isDirectory path then [] else [path]
      else expand fs directoriesOnly steps rest path
    match pattern.literal? with
    | some cs =>
      let name := String.ofList cs
      let path := childPath here name
      if name = "." ∨ name = ".." then
        if isDirectory then accepted path else []
      else if fs.isPresent path ∨ (fs.find false path).isOk then accepted path
      else []
    | none =>
      if !isDirectory then []
      else
        let names := ((fs.list here).toOption.getD []).map Prod.fst
        let found := names.flatMap fun name =>
          let path := childPath here name
          let isDirectory := fs.isDirectory path
          -- the name against a pattern, and the remaining patterns below it
          let settle (patterns : List Pattern) : List Path :=
            match patterns with
            | [] => []
            | pattern :: rest =>
              if !pattern.accepts name.toList then []
              else if rest.isEmpty then
                if directoriesOnly && !isDirectory then [] else [path]
              else expand fs directoriesOnly steps rest path
          if pattern.isRecursive then
            let remaining := afterRecursive rest
            let deeper :=
              if isDirectory then expand fs directoriesOnly steps (pattern :: remaining) path
              else []
            let here :=
              if remaining.isEmpty then if isDirectory then [path] else []
              else settle remaining
            deeper ++ here
          else settle (pattern :: rest)
        let special := if pattern.startsWithDot then
            [".", ".."].filter fun name => pattern.accepts name.toList
          else []
        found ++ special.flatMap fun name => accepted (here.join ⟨name⟩)

/-- The greatest number of steps on the way to one path. -/
def maxSteps (fs : FileSystem) (query : Query) : Nat :=
  query.components.length + (FileSystem.maxLinks + 1) * (fs.entries.length + 2)

/-- The paths that a query stands for. -/
def Query.search (fs : FileSystem) (query : Query) : List Path :=
  expand fs query.directoriesOnly (maxSteps fs query) query.components query.start

end PackageRelease.Glob
