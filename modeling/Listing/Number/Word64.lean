set_option autoImplicit false

namespace Listing.Word64

def least : Int := -9223372036854775808
def greatest : Int := 9223372036854775807

def holds (n : Int) : Bool := least ≤ n && n ≤ greatest

theorem holds_iff {n : Int} : holds n = true ↔ least ≤ n ∧ n ≤ greatest := by
  simp only [holds, Bool.and_eq_true, decide_eq_true_eq]

theorem holds_of_le {n : Int} (h : 0 ≤ n) (hn : n ≤ greatest) : holds n = true :=
  holds_iff.2 ⟨Int.le_trans (by decide) h, hn⟩

theorem not_holds_of_lt {n : Int} (h : greatest < n) : holds n = false := by
  rw [← Bool.not_eq_true, holds_iff]
  exact fun hn => Int.not_le.2 h hn.2

end Listing.Word64
