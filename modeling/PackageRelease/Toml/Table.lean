import PackageRelease.Toml.Basic

/-! # Building tables

  A dotted key leads from a table through further tables, which are made where they are missing.
  Through an array that grows by headers the way goes on in its last item. Nothing is ever
  replaced: a key that is there already can only be a step on the way, and only if what it leads
  to still admits additions.
-/

namespace PackageRelease.Toml

/-- A table together with how it came about. -/
abbrev Place := Fields Toml × TableKind

/-- Changes the table that a path leads to. `byDottedKey` tells whether the path is the front of a
    dotted key or of a header. -/
def modifyAt (byDottedKey : Bool) (change : Place → Option Place) :
    (path : List String) → Place → Option Place
  | [], place => change place
  | key :: path, (fields, kind) =>
    match fields.get? key with
    | none => do
      let made := if byDottedKey then TableKind.dotted else .implied
      let (inner, made) ← modifyAt byDottedKey change path ([], made)
      return (fields.set key (.table inner made), kind)
    | some (.table inner innerKind) => do
      guard (innerKind.admits byDottedKey)
      let (inner, innerKind) ← modifyAt byDottedKey change path (inner, innerKind)
      return (fields.set key (.table inner innerKind), kind)
    | some (.array items true) =>
      match items.getLast? with
      | some (.table inner innerKind) => do
        let (inner, innerKind) ← modifyAt byDottedKey change path (inner, innerKind)
        return (fields.set key (.array (items.dropLast ++ [.table inner innerKind]) true), kind)
      | _ => none
    | some _ => none

/-- Adds a field that is not there yet. -/
def addField (key : String) (value : Toml) : Place → Option Place
  | (fields, kind) => do
    guard ((fields.get? key).isNone)
    return (fields.set key value, kind)

/-- Adds a value under a dotted key. A table that got its header by other means does not take it. -/
def assign (path : List String) (key : String) (value : Toml) (place : Place) : Option Place :=
  modifyAt true (fun inner => do
    guard (path.isEmpty || inner.2 = .dotted)
    addField key value inner) path place

/-! ### Headers -/

/-- The table that a header opens: a new one, or one that so far was only a step on the way. -/
def opened? : Option Toml → Option (Fields Toml)
  | none => some []
  | some (.table inner .implied) => some inner
  | some _ => none

/-- Fills the table of a header and puts it last. -/
def fillTable (key : String) (fill : Place → Option Place) : Place → Option Place
  | (fields, kind) => do
    let inner ← opened? (fields.get? key)
    let (inner, innerKind) ← fill (inner, .headed)
    return (fields.filter (fun field => field.1 ≠ key) ++ [(key, .table inner innerKind)], kind)

/-- Fills the table of a header with two brackets and puts it at the end of its array. -/
def fillItem (key : String) (fill : Place → Option Place) : Place → Option Place
  | (fields, kind) => do
    let items ← match fields.get? key with
      | none => some []
      | some (.array items true) => some items
      | some _ => none
    let (inner, innerKind) ← fill ([], .headed)
    return (fields.set key (.array (items ++ [.table inner innerKind]) true), kind)

end PackageRelease.Toml
