import Mathlib.Algebra.Group.Nat.Defs
import Mathlib.Data.List.AList

/-!
# The handles of a Go shim

The shims (`shim/ts/main.go`, `shim/nb/main.go`) hand out nodes and exported
listeners as numbers of type `C.long`: 32 bits wide on Windows and 64 elsewhere,
so the width is a parameter. The counters wrap. Here are a node's exported
listeners, which the two shims keep in the same way.
-/

namespace ErplTunnel.Shim

/-- `C.long`. -/
abbrev Long (w : Nat) := BitVec w

/-- The fields `exports` and `nextExport` of a node; `ε` are the exporters. -/
structure Exports (w : Nat) (ε : Type) where
  exports : AList fun _ : Long w => ε
  nextExport : Long w

namespace Exports

variable {w : Nat} {ε : Type}

/-- A new node. -/
def empty : Exports w ε := ⟨∅, 0⟩

def addExport (n : Exports w ε) (e : ε) : Long w × Exports w ε :=
  (n.nextExport + 1, ⟨n.exports.insert (n.nextExport + 1) e, n.nextExport + 1⟩)

/-- The exporter that was there is the caller's to close. -/
def takeExport (n : Exports w ε) (h : Long w) : Option ε × Exports w ε :=
  (n.exports.lookup h, { n with exports := n.exports.erase h })

/-- The exporters that were there are the caller's to close. -/
def closeAllExports (n : Exports w ε) : List ε × Exports w ε :=
  (n.exports.entries.map (·.2), { n with exports := ∅ })

theorem mem_closeAllExports {n : Exports w ε} {e : ε} :
    e ∈ n.closeAllExports.1 ↔ ∃ h, n.exports.lookup h = some e := by
  simp only [closeAllExports, List.mem_map]
  constructor
  · rintro ⟨⟨h, e⟩, hm, rfl⟩
    exact ⟨h, AList.mem_lookup_iff.mpr hm⟩
  · rintro ⟨h, he⟩
    exact ⟨⟨h, e⟩, AList.mem_lookup_iff.mp he, rfl⟩

end Exports

theorem ofNat_succ (w n : Nat) : BitVec.ofNat w n + 1 = BitVec.ofNat w (n + 1) := by
  rw [BitVec.ofNat_add]
  rfl

/-- A counter gives a number again only when it has wrapped. -/
theorem ofNat_ne_ofNat_succ {w k n : Nat} (hk : 0 < k) (hkn : k ≤ n) (hn : n < 2 ^ w) :
    BitVec.ofNat w k ≠ BitVec.ofNat w (n + 1) := by
  intro he
  have h : k % 2 ^ w = (n + 1) % 2 ^ w := by simpa using congrArg BitVec.toNat he
  rw [Nat.mod_eq_of_lt (by omega)] at h
  rcases Nat.lt_or_eq_of_le (Nat.succ_le_of_lt hn) with hlt | heq
  · rw [Nat.mod_eq_of_lt hlt] at h
    omega
  · rw [show n + 1 = 2 ^ w from heq, Nat.mod_self] at h
    omega

theorem ofNat_succ_ne_zero {w n : Nat} (hn : n + 1 < 2 ^ w) : BitVec.ofNat w (n + 1) ≠ 0 := by
  intro he
  have h : (n + 1) % 2 ^ w = 0 := by simpa using congrArg BitVec.toNat he
  rw [Nat.mod_eq_of_lt hn] at h
  omega

end ErplTunnel.Shim
