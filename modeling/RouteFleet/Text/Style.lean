/-! # Text in the style of a terminal -/

namespace RouteFleet.Text

/-- Text in a terminal's style: `on` switches the style on and `off` switches it off. -/
def styled (on off : Nat) (s : String) : String :=
  "\x1b[" ++ toString on ++ "m" ++ s ++ "\x1b[" ++ toString off ++ "m"

/-- Bold text. -/
def bold (s : String) : String := styled 1 0 s

/-- Green text. -/
def green (s : String) : String := styled 32 39 s

/-- Red text. -/
def red (s : String) : String := styled 31 39 s

/-- Cyan text. -/
def cyan (s : String) : String := styled 36 39 s

end RouteFleet.Text
