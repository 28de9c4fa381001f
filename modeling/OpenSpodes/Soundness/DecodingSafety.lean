import Mathlib.Data.List.Perm.Subperm
import OpenSpodes.Proofs.ReadFuel

/-! # Decoding untrusted values

Counts and type descriptions of a value come from the peer. Whatever they are, `osp_value_read` ends, stays within the
received bytes and within its pool, and what it accepts is a proper tree: no two items share a place, so writing or
skipping the value visits each of them once.
-/

namespace OpenSpodes

open Machine Machine.Fallible

/-- What holds of `osp_value_read` on any input. -/
structure DecodesSafely (old : Value) (r : Reader) : Prop where
  /-- The recursion over tagged values ends by itself: more levels than the model gives it change nothing. -/
  ends : ∀ fuel, poolLen + 2 ≤ fuel →
    valueReadImpl fuel old { r with pool := { r.pool with used := 0 } } = valueRead old r
  /-- So does the recursion over type descriptions. -/
  elementsEnd : ∀ (desc contents : Buf) (pool : Pool) (fuel : ℕ), desc.rd = 0 → desc.wr < 2 ^ 32 → desc.wr + 1 ≤ fuel →
    compactDecodeElements fuel ⟨desc, contents, pool⟩ = compactDecodeElements (desc.wr + 1) ⟨desc, contents, pool⟩
  /-- The cursor stays inside. -/
  cursor : (valueRead old r).2.buf.rd ≤ (valueRead old r).2.buf.wr ∧ (valueRead old r).2.buf.wr = r.buf.wr
  /-- No byte behind the valid ones has an influence. -/
  blind : ∀ area : List UInt8, area.take r.buf.wr = r.buf.buf.take r.buf.wr →
    (valueRead old ⟨{ r.buf with buf := area }, r.pool⟩).1 = (valueRead old r).1 ∧
      (valueRead old ⟨{ r.buf with buf := area }, r.pool⟩).2.buf.rd = (valueRead old r).2.buf.rd ∧
      (valueRead old ⟨{ r.buf with buf := area }, r.pool⟩).2.pool = (valueRead old r).2.pool
  /-- The pool is not exceeded. -/
  pool : (valueRead old r).2.pool.used ≤ poolLen
  /-- An accepted value is a tree within the limits, whose items all have places of their own. -/
  tree : (valueRead old r).1.1 = .ok →
    ∃ places, (valueRead old r).1.2.Tree Value.Leaf (valueRead old r).2.pool.slots places ∧ places.Nodup ∧
      (∀ place ∈ places, place < poolLen) ∧ places.length + 1 ≤ 513

theorem length_le_of_nodup {places : List ℕ} {n : ℕ} (distinct : places.Nodup) (below : ∀ place ∈ places, place < n) :
    places.length ≤ n := by
  have included : places ⊆ List.range n := fun place member => List.mem_range.mpr (below place member)
  simpa using (distinct.subperm included).length_le

/-- `osp_value_read` is safe on every input. -/
theorem decoding_safe (old : Value) (r : Reader) (inside : r.buf.rd ≤ r.buf.wr) (area : r.buf.wr ≤ r.buf.buf.length)
    (size : r.buf.buf.length < 2 ^ 32) : DecodesSafely old r := by
  have agree (other : List UInt8) (same : other.take r.buf.wr = r.buf.buf.take r.buf.wr) :
      Reader.Agree 0 r.buf.wr r ⟨{ r.buf with buf := other }, r.pool⟩ :=
    ⟨⟨rfl, rfl, rfl, Nat.zero_le _, inside, area.trans_lt size, same⟩, rfl⟩
  have result := valueReadImpl_tree (poolLen + 2) old { r with pool := { r.pool with used := 0 } }
  change ReadsTree _ (valueRead old r) at result
  have bounded : (valueRead old r).2.pool.used ≤ poolLen := result.ext.bounded (Nat.zero_le _)
  constructor
  case ends =>
    intro fuel enough
    exact valueReadImpl_fuel (n := poolLen + 1) (by simp) (by omega) (by omega)
  case elementsEnd =>
    intro desc contents pool fuel start short enough
    have ahead : Compact.Ahead 0 desc.wr ⟨desc, contents, pool⟩ :=
      ⟨rfl, rfl, rfl, Nat.zero_le _, by simp [start], short, rfl⟩
    exact (compactDecodeElements_fuel (by omega) (by omega)).eq ahead
  case cursor =>
    have after := (valueRead_local old r r (agree r.buf.buf rfl)).2.buf
    exact ⟨after.wr ▸ after.inside, after.wr⟩
  case blind =>
    intro other same
    obtain ⟨value, after⟩ := valueRead_local old r _ (agree other same)
    exact ⟨value.symm, after.buf.rd, after.pool⟩
  case pool => exact bounded
  case tree =>
    intro ok
    obtain ⟨places, tree, distinct, within⟩ := result.laid ok
    have below : ∀ place ∈ places, place < poolLen := fun place member => (within place member).2.trans_le bounded
    exact ⟨places, tree, distinct, below, Nat.succ_le_succ (length_le_of_nodup distinct below)⟩

/-- A structure of an array and a compact array, with an old byte behind it. -/
def nestedSample : Reader :=
  ⟨⟨[2, 2, 1, 1, 0x11, 5, 0x13, 0x11, 3, 1, 2, 3, 0xFF], 0, 12⟩, Pool.empty⟩

theorem decoding_safe_nested :
    (valueRead .null nestedSample).1 = (.ok, .struct 0 2) ∧ DecodesSafely .null nestedSample :=
  ⟨by decide +kernel, decoding_safe .null nestedSample (by decide) (by decide) (by decide)⟩

end OpenSpodes
