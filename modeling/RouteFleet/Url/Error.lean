/-! # Why a text is no URL -/

namespace RouteFleet

/-- Why a text is no URL. -/
inductive UrlError where
  | noScheme
  | emptyHost
  | badDomain
  | badHostCharacter
  | badIpv4
  | badIpv6
  | badPort
deriving DecidableEq, Repr

/-- What is wrong. -/
def UrlError.message : UrlError → String
  | noScheme => "relative URL without a base"
  | emptyHost => "empty host"
  | badDomain => "invalid international domain name"
  | badHostCharacter => "invalid domain character"
  | badIpv4 => "invalid IPv4 address"
  | badIpv6 => "invalid IPv6 address"
  | badPort => "invalid port number"

end RouteFleet
