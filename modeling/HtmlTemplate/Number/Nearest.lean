import HtmlTemplate.Number.Double

namespace HtmlTemplate.Double

def nearest (n : Nat) : Nat :=
  let unit := Nat.pow 2 (Nat.log2 n - 52)
  let rest := n % unit
  if 2 * rest < unit || (2 * rest = unit && n / unit % 2 = 0) then n - rest else n - rest + unit

/-- Half a place above the largest finite number. -/
def overflow : Nat :=
  Nat.pow 2 1024 - Nat.pow 2 970

end HtmlTemplate.Double
