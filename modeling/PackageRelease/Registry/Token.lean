import PackageRelease.Release.Failure

/-! # Registry tokens

  A token is never blank and has no white space around it. Its only use is the header that
  authorizes an upload; every text that shows a token hides it.
-/

namespace PackageRelease

/-- Named values that the program is started with. -/
abbrev Environment := List (String × String)

namespace Environment

/-- The value of a variable. No variable has an empty name or one with an equals sign. -/
def value? (environment : Environment) (name : String) : Option String :=
  if name.isEmpty || name.toList.contains '=' then none else environment.lookup name

end Environment

/-- A token that lets its holder upload packages. -/
structure Token where
  /-- The secret, without white space around it. -/
  secret : String
  deriving DecidableEq

namespace Token

/-- The token in a text. -/
def ofText (text : String) : Except Failure Token :=
  let secret := Text.trim text
  if secret.isEmpty then .error (.publish (.unauthorized "registry token is empty"))
  else .ok ⟨secret⟩

/-- The token in a variable. -/
def ofEnvironment (environment : Environment) (name : String) : Except Failure Token :=
  match environment.value? name with
  | none =>
    .error (.publish (.unauthorized ("environment variable " ++ name ++ " is not set")))
  | some value =>
    if Text.isBlankText value then
      .error (.publish (.unauthorized ("environment variable " ++ name ++ " is empty")))
    else ofText value

/-- The value of the header that authorizes an upload. -/
def header (token : Token) : String := "Bearer " ++ token.secret

/-- What is shown in place of a secret. -/
def mask : String := "<redacted>"

/-- A token in messages. -/
def display (_ : Token) : String := mask

/-- A token in diagnostics. -/
def inspect (_ : Token) : String := "Credential \x7b token: \"" ++ mask ++ "\" \x7d"

end Token

end PackageRelease
