/-! # Why a text is not a web address -/

namespace PackageRelease

/-- Why a text is not the address of a web server. -/
inductive UrlFault where
  /-- No scheme stands in front. -/
  | noScheme
  /-- There is no host. -/
  | emptyHost
  /-- The port is not a number below 65536. -/
  | invalidPort
  /-- A host that ends in a number is not an address of four octets. -/
  | invalidIpv4
  /-- A host in brackets is not an address of eight groups. -/
  | invalidIpv6
  /-- The host is not a domain name. -/
  | invalidDomain
  /-- A host under a scheme of no special kind holds a forbidden character. -/
  | forbiddenHostCharacter
  /-- The address is well formed, but not one of the web. -/
  | unsupportedScheme (scheme : String)
  deriving DecidableEq, Repr

/-- The wording of each fault. -/
def UrlFault.message : UrlFault → String
  | .noScheme => "relative URL without a base"
  | .emptyHost => "empty host"
  | .invalidPort => "invalid port number"
  | .invalidIpv4 => "invalid IPv4 address"
  | .invalidIpv6 => "invalid IPv6 address"
  | .invalidDomain => "invalid international domain name"
  | .forbiddenHostCharacter => "invalid domain character"
  | .unsupportedScheme scheme => "unsupported scheme '" ++ scheme ++ "'"

end PackageRelease
