/-!
# Discovery numbers

Nodes and errors are numbered by a counter of 32 bits. After the largest number it starts again at zero.
-/

namespace PalChecker

structure SeqNumber where
  word : UInt32
  deriving DecidableEq, Repr

namespace SeqNumber

/-- The number that is handed out after `count` others. -/
def ofNat (count : Nat) : SeqNumber := ⟨.ofNat count⟩

def toNat (n : SeqNumber) : Nat := n.word.toNat

instance : Coe Nat SeqNumber := ⟨ofNat⟩

instance : Coe SeqNumber Nat := ⟨toNat⟩

instance (k : Nat) : OfNat SeqNumber k := ⟨ofNat k⟩

instance : LE SeqNumber := ⟨fun a b => a.toNat ≤ b.toNat⟩

instance : LT SeqNumber := ⟨fun a b => a.toNat < b.toNat⟩

instance (a b : SeqNumber) : Decidable (a ≤ b) := inferInstanceAs (Decidable (a.toNat ≤ b.toNat))

instance (a b : SeqNumber) : Decidable (a < b) := inferInstanceAs (Decidable (a.toNat < b.toNat))

instance : ToString SeqNumber := ⟨fun n => toString n.toNat⟩

theorem le_iff_toNat_le {a b : SeqNumber} : a ≤ b ↔ a.toNat ≤ b.toNat := Iff.rfl

theorem lt_iff_toNat_lt {a b : SeqNumber} : a < b ↔ a.toNat < b.toNat := Iff.rfl

theorem eq_of_toNat_eq {a b : SeqNumber} (h : a.toNat = b.toNat) : a = b :=
  congrArg SeqNumber.mk (UInt32.toNat_inj.mp h)

theorem toNat_ofNat_le (count : Nat) : (ofNat count).toNat ≤ count := Nat.mod_le _ _

theorem toNat_ofNat_of_lt {count : Nat} (h : count < UInt32.size) : (ofNat count).toNat = count :=
  Nat.mod_eq_of_lt h

theorem word_ofNat_succ (count : Nat) : (ofNat (count + 1)).word = (ofNat count).word + 1 :=
  UInt32.ofNat_add count 1

end SeqNumber

end PalChecker
