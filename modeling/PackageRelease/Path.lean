import PackageRelease.Text.Basic

/-! # Paths

  A path keeps its text, because messages show it as it was given, and is taken apart into
  components where its meaning counts. Repeated slashes, a slash at the end and every `.` except
  one at the front leave no component.

  Paths are ordered by their components, so `a/b` comes before `a.b`.
-/

namespace PackageRelease

/-- A path as it was written. -/
structure Path where
  /-- The text of the path. -/
  text : String
  deriving DecidableEq, Repr, Inhabited

namespace Path

/-! ### Components -/

/-- One step of a path. -/
inductive Component where
  /-- The slash in front of an absolute path. -/
  | root
  /-- A `.` at the front of a relative path. -/
  | current
  /-- A `..`. -/
  | parent
  /-- The name of a file or directory. -/
  | name (text : String)
  deriving DecidableEq, Repr

/-- A sequence of components. -/
abbrev Components := List Component

/-- Whether the path starts at the root. -/
def isAbsolute (p : Path) : Bool := p.text.toList.head? = some '/'

/-- Whether the path ends in a slash. -/
def endsInSlash (p : Path) : Bool := p.text.toList.getLast? = some '/'

/-- The texts between the slashes, without empty ones. -/
def pieces (p : Path) : List String := (Text.split '/' p.text).filter (! ·.isEmpty)

/-- The component that a text between slashes stands for behind the first one. -/
def Component.ofPiece? (piece : String) : Option Component :=
  if piece = "." then none else if piece = ".." then some .parent else some (.name piece)

/-- The components of a path. -/
def components (p : Path) : Components :=
  if p.isAbsolute then .root :: p.pieces.filterMap Component.ofPiece?
  else match p.pieces with
    | "." :: rest => .current :: rest.filterMap Component.ofPiece?
    | pieces => pieces.filterMap Component.ofPiece?

/-- The text of a component. -/
def Component.text : Component → String
  | .root => "/"
  | .current => "."
  | .parent => ".."
  | .name s => s

/-- A path with the given components. -/
def ofComponents : Components → Path
  | .root :: rest => ⟨"/" ++ Text.join "/" (rest.map Component.text)⟩
  | components => ⟨Text.join "/" (components.map Component.text)⟩

/-! ### Building paths -/

/-- The path of `other` seen from `base`; an absolute one stays as it is. -/
def join (base other : Path) : Path :=
  if other.isAbsolute then other
  else if base.text.isEmpty || base.endsInSlash then ⟨base.text ++ other.text⟩
  else ⟨base.text ++ "/" ++ other.text⟩

/-- The name of the file that a path denotes: none for a root or a `..` at the end. -/
def fileName? (p : Path) : Option String :=
  match p.components.getLast? with
  | some (.name s) => some s
  | _ => none

/-- Texts between slashes without those at the end that ask for nothing. -/
def dropIdle (texts : List String) : List String :=
  (texts.reverse.dropWhile fun s => s = "" || s = ".").reverse

/-- What a path has in front of its first name. -/
def start (p : Path) : Path :=
  match p.components.head? with
  | some .root => ofComponents [.root]
  | some .current => ofComponents [.current]
  | _ => ofComponents []

/-- The path in front of the last name. Its text stays as it was written, but for what asks for
    nothing at the end. -/
def front (p : Path) : Path :=
  let texts := dropIdle (dropIdle (Text.split '/' p.text)).dropLast
  if texts = [] then p.start else ⟨Text.join "/" texts⟩

/-- The path with another file name in place of its own, or behind it when it has none. -/
def withFileName (p : Path) (name : String) : Path :=
  match p.fileName? with
  | some _ => p.front.join ⟨name⟩
  | none => p.join ⟨name⟩

/-- What is left of the components behind those of `base`. -/
def stripBase? : (base path : Components) → Option Components
  | [], path => some path
  | _ :: _, [] => none
  | b :: base, c :: path => if b = c then stripBase? base path else none

/-- The components as one text with slashes between them. -/
def slashed (components : Components) : String :=
  Text.join "/" (components.map Component.text)

/-! ### Order -/

/-- The place of a kind of component in the order. -/
def Component.rank : Component → Nat
  | .root => 0
  | .current => 1
  | .parent => 2
  | .name _ => 3

/-- The order of two components: by kind, and names by their characters. -/
def Component.compare (a b : Component) : Ordering :=
  match a, b with
  | .name s, .name t => if s = t then .eq else if s < t then .lt else .gt
  | a, b => Ord.compare a.rank b.rank

/-- The order of two paths: the first component that differs decides. -/
def compareComponents : Components → Components → Ordering
  | [], [] => .eq
  | [], _ :: _ => .lt
  | _ :: _, [] => .gt
  | a :: as, b :: bs =>
    match a.compare b with
    | .eq => compareComponents as bs
    | other => other

/-- Puts a path into an ascending list of paths, unless it is there. -/
def insert (p : Components) : List Components → List Components
  | [] => [p]
  | q :: rest =>
    match compareComponents p q with
    | .lt => p :: q :: rest
    | .eq => q :: rest
    | .gt => q :: insert p rest

end Path

end PackageRelease
