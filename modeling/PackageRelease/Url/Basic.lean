import PackageRelease.Url.Address
import PackageRelease.Url.Domain
import PackageRelease.Url.Percent

/-! # Web addresses

  An address is kept in parts that are already in their normal form, so that writing it is putting
  the parts together. The path begins with a slash; a port that is the usual one of the scheme is
  left out.
-/

namespace PackageRelease

/-! ### Hosts -/

/-- The server that an address names. -/
inductive Host where
  /-- A domain name in its ASCII form. -/
  | domain (name : String)
  /-- An address of four octets. -/
  | ipv4 (address : Nat)
  /-- An address of eight groups. -/
  | ipv6 (groups : List Nat)
  deriving DecidableEq, Repr

namespace Host

/-- The text of a host. -/
def render : Host → String
  | .domain name => name
  | .ipv4 address => Ipv4.render address
  | .ipv6 groups => "[" ++ Ipv6.render groups ++ "]"

/-- The address in brackets that a host denotes. -/
def parseBracketed (cs : List Char) : Except UrlFault Host :=
  if cs.getLast? = some ']' then
    match Ipv6.parse? (cs.drop 1).dropLast with
    | some groups => .ok (.ipv6 groups)
    | none => .error .invalidIpv6
  else .error .invalidIpv6

/-- The host that a text denotes. A name that ends in a number has to be an address. -/
def parse (cs : List Char) : Except UrlFault Host := do
  if cs.head? = some '[' then parseBracketed cs
  else
    let name ← Domain.toAscii (Percent.decode cs)
    if name.isEmpty then throw .emptyHost
    if Ipv4.endsInNumber name then
      match Ipv4.parse? name with
      | some address => return .ipv4 address
      | none => throw .invalidIpv4
    return .domain (String.ofList name)

end Host

/-! ### Addresses -/

/-- The schemes of the web. -/
inductive Scheme where
  | http
  | https
  deriving DecidableEq, Repr

namespace Scheme

/-- The text of a scheme. -/
def text : Scheme → String
  | .http => "http"
  | .https => "https"

/-- The port that is used when none is given. -/
def port : Scheme → Nat
  | .http => 80
  | .https => 443

end Scheme

/-- A web address in its normal form. -/
structure Url where
  /-- The scheme. -/
  scheme : Scheme
  /-- The user name, percent encoded. -/
  userName : String
  /-- The password, percent encoded. -/
  password? : Option String
  /-- The server. -/
  host : Host
  /-- The port, if it is not the usual one. -/
  port? : Option Nat
  /-- The path with its leading slash, percent encoded. -/
  path : String
  /-- The query, percent encoded. -/
  query? : Option String
  /-- The fragment, percent encoded. -/
  fragment? : Option String
  deriving DecidableEq, Repr

namespace Url

/-- The user name and password with the sign behind them. -/
def userInfo (url : Url) : String :=
  match url.password? with
  | some password => url.userName ++ ":" ++ password ++ "@"
  | none => if url.userName.isEmpty then "" else url.userName ++ "@"

/-- The text of an address. -/
def render (url : Url) : String :=
  url.scheme.text ++ "://" ++ url.userInfo ++ url.host.render ++
    (url.port?.elim "" fun port => ":" ++ Text.decimal port) ++ url.path ++
    (url.query?.elim "" fun query => "?" ++ query) ++
    (url.fragment?.elim "" fun fragment => "#" ++ fragment)

/-- The address without user name and password. -/
def withoutUser (url : Url) : Url := { url with userName := "", password? := none }

end Url

end PackageRelease
