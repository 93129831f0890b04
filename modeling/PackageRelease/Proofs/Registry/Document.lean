import PackageRelease.Proofs.Encoding.Base64
import PackageRelease.Proofs.Json.Fields
import PackageRelease.Registry.Document

/-! # What an upload document says

  The document of an upload is about one manifest and one package. The key idea: the entry of the
  version is the manifest with two fields set, so it says nothing else that the manifest does not
  say, in the same order.
-/

namespace PackageRelease.Registry

/-- The fields that the entry of a version has besides those of the manifest. -/
def additions (spec : String) (distribution : Json) : Fields Json :=
  [("_id", .string spec), ("dist", distribution)]

theorem nodup_additions (spec : String) (distribution : Json) :
    (additions spec distribution).keys.Nodup := by
  show ["_id", "dist"].Nodup
  decide

/-- What the document of an upload says about a manifest and a packed package. -/
structure Announces (document : Json) (m : Manifest) (t : Tarball)
    (name version distTag : String) : Prop where
  /-- The document names the package. -/
  names : document.field? "_id" = some (.string name) ∧
    document.field? "name" = some (.string name)
  /-- One tag leads to the version. -/
  tags : document.field? "dist-tags" = some (.object [(distTag, .string version)])
  /-- There is one version: the manifest, with a name of its own and the digests of the package. -/
  versions : ∃ (entry : Fields Json) (distribution : Json),
    document.field? "versions" = some (.object [(version, .object entry)]) ∧
    entry.Extends m.fields (additions (specOf name version) distribution) ∧
    distribution.field? "shasum" = some (.string t.shasum) ∧
    distribution.field? "integrity" = some (.string t.integrity)
  /-- There is one attachment: the package. -/
  attachments : ∃ attachment data,
    document.field? "_attachments" = some (.object [(t.fileName, attachment)]) ∧
    attachment.field? "data" = some (.string data) ∧ Base64.decode? data = some t.bytes ∧
    attachment.field? "length" = some (.number (.integer t.bytes.length))

theorem announces_uploadDocument {m : Manifest} (h : m.fields.keys.Nodup) (target : Target)
    (t : Tarball) (name version : String) :
    Announces (uploadDocument target m t name version) m t name version target.distTag where
  names := ⟨rfl, rfl⟩
  tags := rfl
  versions := ⟨_, distribution target t name, rfl, Fields.extends_setAll h (nodup_additions _ _),
    rfl, rfl⟩
  attachments := ⟨_, _, rfl, rfl, Base64.decode?_encode _, rfl⟩

end PackageRelease.Registry
