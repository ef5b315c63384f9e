import ThreadSwitch.Lib.Bytes

/-!
# UF2 blocks

`uf2conv.py` makes the file that is flashed. A UF2 file is a sequence of blocks of 512
bytes: a header of eight words, the data, zeros, and a last magic word. `contents` is
what the file means: the bytes that flashing it writes, in order.

An exception that Python raises is a `PyError`. Integers that come from the command line
are unbounded there, so they are `Int` here; `struct.pack` rejects those that are no
32-bit word.
-/

namespace ThreadSwitch.Uf2

open ThreadSwitch.Lib

inductive PyError where
  | structError
  | typeError
  | indexError
  | valueError
  | assertionError
  deriving DecidableEq, Repr

/-- "UF2\n". -/
def uf2MagicStart0 : Nat := 0x0A324655

def uf2MagicStart1 : Nat := 0x9E5D5157

def uf2MagicEnd : Nat := 0x0AB16F30

/-! ## Words -/

/-- What `struct` packs as `I`. -/
def IsWord (n : Int) : Prop := 0 ≤ n ∧ n < 2 ^ 32

instance (n : Int) : Decidable (IsWord n) := inferInstanceAs (Decidable (_ ∧ _))

/-- `struct.pack("<I", n)`. -/
def packI (n : Int) : Except PyError Bytes :=
  if IsWord n then .ok (toLE 4 n.toNat) else .error .structError

/-- `struct.pack("<I..I", *ns)`. -/
def pack : List Int → Except PyError Bytes
  | [] => .ok []
  | n :: ns => (packI n).bind fun b => (pack ns).map fun bs => b ++ bs

/-- `struct.unpack("<I..I", buf)[i]`, of a `buf` that is long enough. -/
def unpackI (buf : Bytes) (i : Nat) : Nat := ofLE ((buf.drop (4 * i)).take 4)

theorem pack_eq_ok_iff {ns : List Int} {bs : Bytes} :
    pack ns = .ok bs ↔ (∀ n ∈ ns, IsWord n) ∧ bs = ns.flatMap fun n => toLE 4 n.toNat := by
  induction ns generalizing bs with
  | nil => simp [pack, eq_comm]
  | cons n ns ih =>
    rw [pack, packI]
    by_cases hn : IsWord n
    · rw [if_pos hn]
      cases hr : pack ns with
      | error e =>
        refine iff_of_false (by simp [Except.bind, Except.map]) ?_
        rintro ⟨hall, -⟩
        have := ih.mpr ⟨fun m hm => hall m (List.mem_cons_of_mem _ hm), rfl⟩
        rw [hr] at this
        cases this
      | ok rest =>
        obtain ⟨hall, rfl⟩ := ih.mp hr
        simp only [Except.bind, Except.map, Except.ok.injEq, List.flatMap_cons, List.forall_mem_cons]
        exact ⟨fun h => ⟨⟨hn, hall⟩, h.symm⟩, fun h => h.2.symm⟩
    · rw [if_neg hn]
      exact iff_of_false (by simp [Except.bind]) fun h => hn (h.1 n List.mem_cons_self)

theorem pack_length {ns : List Int} {bs : Bytes} (h : pack ns = .ok bs) :
    bs.length = 4 * ns.length := by
  obtain ⟨-, rfl⟩ := pack_eq_ok_iff.mp h
  simp [List.length_flatMap, List.map_const', Nat.mul_comm]

theorem unpackI_append {buf rest : Bytes} {i : Nat} (h : 4 * i + 4 ≤ buf.length) :
    unpackI (buf ++ rest) i = unpackI buf i := by
  rw [unpackI, List.drop_append_of_le_length (by omega),
    List.take_append_of_le_length (by rw [List.length_drop]; omega), unpackI]

/-- What was packed is unpacked. -/
theorem unpackI_pack {ns : List Int} {bs : Bytes} (h : pack ns = .ok bs) {i : Nat}
    (hi : i < ns.length) : (unpackI bs i : Int) = ns[i] := by
  induction ns generalizing bs i with
  | nil => cases hi
  | cons n ns ih =>
    obtain ⟨hall, rfl⟩ := pack_eq_ok_iff.mp h
    obtain ⟨⟨h0, h32⟩, hrest⟩ := List.forall_mem_cons.mp hall
    have hlen : (toLE 4 n.toNat).length = 4 := length_toLE 4 n.toNat
    rw [List.flatMap_cons]
    cases i with
    | zero =>
      have hn : n.toNat < 256 ^ 4 := by omega
      rw [unpackI, Nat.mul_zero, List.drop_zero, List.take_left' hlen, ofLE_toLE hn]
      exact Int.toNat_of_nonneg h0
    | succ i =>
      have hdrop : 4 * (i + 1) = 4 + 4 * i := by omega
      rw [unpackI, hdrop, ← List.drop_drop, List.drop_left' hlen]
      exact ih (pack_eq_ok_iff.mpr ⟨hrest, rfl⟩) (Nat.lt_of_succ_lt_succ hi)

/-! ## Blocks -/

/-- The words of a block's header. -/
structure Header where
  magicStart0 : Nat
  magicStart1 : Nat
  flags : Nat
  addr : Nat
  datalen : Nat
  blockno : Nat
  numblocks : Nat
  familyid : Nat
  deriving DecidableEq, Repr

/-- `struct.unpack("<IIIIIIII", block[0:32])`. -/
def unpackHeader (block : Bytes) : Header where
  magicStart0 := unpackI block 0
  magicStart1 := unpackI block 1
  flags := unpackI block 2
  addr := unpackI block 3
  datalen := unpackI block 4
  blockno := unpackI block 5
  numblocks := unpackI block 6
  familyid := unpackI block 7

/-- Both magic words at the start are right. -/
def Header.Magic (hd : Header) : Prop :=
  hd.magicStart0 = uf2MagicStart0 ∧ hd.magicStart1 = uf2MagicStart1

instance (hd : Header) : Decidable hd.Magic := inferInstanceAs (Decidable (_ ∧ _))

/-- The block is not to be flashed. -/
def Header.noFlash (hd : Header) : Bool := hd.flags &&& 1 != 0

/-- The last word is a family id. -/
def Header.hasFamily (hd : Header) : Bool := hd.flags &&& 0x2000 != 0

/-- `block[32 : 32 + datalen]`. -/
def data (block : Bytes) : Bytes := (block.drop 32).take (unpackHeader block).datalen

/-- The blocks that are flashed. -/
def flashed (blocks : List Bytes) : List Bytes :=
  blocks.filter fun block => !(unpackHeader block).noFlash

/-- The blocks of a file that are flashed. -/
def flashBlocks (buf : Bytes) : List Bytes := flashed (chunks 512 buf)

/-- The bytes that flashing a file writes, with their addresses, in order. -/
def contents (buf : Bytes) : List (Nat × UInt8) :=
  (flashBlocks buf).flatMap fun block => placed (unpackHeader block).addr (data block)

/-! ## Packed blocks -/

/-- `0x2000` if there is a family id. -/
def familyFlags (familyid : Int) : Nat := if familyid ≠ 0 then 0x2000 else 0

/-- The zeros between the data and the last word. -/
def datapadding : Bytes := List.replicate (512 - 256 - 32 - 4) 0

/-- The words of a header that is packed. -/
def headerWords (familyid addr : Int) (blockno numblocks : Nat) : List Int :=
  [uf2MagicStart0, uf2MagicStart1, familyFlags familyid, addr, 256, blockno, numblocks, familyid]

/-- A block of 256 bytes of data, as `convert_to_uf2` and `Block.encode` put it together. -/
def packBlock (familyid addr : Int) (blockno numblocks : Nat) (bytes : Bytes) :
    Except PyError Bytes :=
  (pack (headerWords familyid addr blockno numblocks)).bind fun hd =>
    (pack [uf2MagicEnd]).map fun magicEnd =>
      hd ++ bytes ++ datapadding ++ magicEnd

/-- The header that `packBlock` packs. -/
def packedHeader (familyid addr : Int) (blockno numblocks : Nat) : Header where
  magicStart0 := uf2MagicStart0
  magicStart1 := uf2MagicStart1
  flags := familyFlags familyid
  addr := addr.toNat
  datalen := 256
  blockno := blockno
  numblocks := numblocks
  familyid := familyid.toNat

section packed
variable {familyid addr : Int} {blockno numblocks : Nat} {bytes block : Bytes}

theorem packBlock_eq_ok_iff :
    packBlock familyid addr blockno numblocks bytes = .ok block ↔
      ∃ hd, pack (headerWords familyid addr blockno numblocks) = .ok hd ∧
        block = hd ++ (bytes ++ (datapadding ++ toLE 4 uf2MagicEnd)) := by
  have hend : pack [uf2MagicEnd] = .ok (toLE 4 uf2MagicEnd) := rfl
  rw [packBlock, hend]
  cases pack (headerWords familyid addr blockno numblocks) <;>
    simp [Except.bind, Except.map, eq_comm]

theorem isWord_familyFlags (familyid : Int) : IsWord (familyFlags familyid) := by
  unfold familyFlags
  split <;> decide

/-- Packing fails only for a word that is too large, or negative. -/
theorem packBlock_isOk_iff :
    (∃ block, packBlock familyid addr blockno numblocks bytes = .ok block) ↔
      IsWord familyid ∧ IsWord addr ∧ IsWord blockno ∧ IsWord numblocks := by
  have hmagic : IsWord uf2MagicStart0 ∧ IsWord uf2MagicStart1 ∧ IsWord 256 := by decide
  have hwords : (∀ n ∈ headerWords familyid addr blockno numblocks, IsWord n) ↔
      IsWord familyid ∧ IsWord addr ∧ IsWord blockno ∧ IsWord numblocks := by
    have hflags := isWord_familyFlags familyid
    simp only [headerWords, List.forall_mem_cons, List.not_mem_nil, false_imp_iff, implies_true]
    tauto
  simp only [packBlock_eq_ok_iff, pack_eq_ok_iff, hwords]
  refine ⟨?_, fun h => ⟨_, _, ⟨h, rfl⟩, rfl⟩⟩
  rintro ⟨-, -, ⟨h, -⟩, -⟩
  exact h

/-- A packed block has 512 bytes, with its header and data where they are looked for. -/
theorem packBlock_spec (hb : bytes.length = 256)
    (h : packBlock familyid addr blockno numblocks bytes = .ok block) :
    block.length = 512 ∧ unpackHeader block = packedHeader familyid addr blockno numblocks ∧
      data block = bytes := by
  obtain ⟨hd, hp, rfl⟩ := packBlock_eq_ok_iff.mp h
  have hlen : hd.length = 32 := pack_length hp
  generalize hrest : bytes ++ (datapadding ++ toLE 4 uf2MagicEnd) = rest
  have hword : ∀ i (hi : i < 8), unpackI (hd ++ rest) i =
      ((headerWords familyid addr blockno numblocks).get ⟨i, hi⟩).toNat := by
    intro i hi
    have hi' : (unpackI hd i : Int) = (headerWords familyid addr blockno numblocks).get ⟨i, hi⟩ :=
      unpackI_pack hp hi
    rw [unpackI_append (by omega), ← hi', Int.toNat_natCast]
  have hheader : unpackHeader (hd ++ rest) = packedHeader familyid addr blockno numblocks := by
    simp only [unpackHeader, packedHeader, Header.mk.injEq]
    exact ⟨hword 0 (by decide), hword 1 (by decide), hword 2 (by decide), hword 3 (by decide),
      hword 4 (by decide), hword 5 (by decide), hword 6 (by decide), hword 7 (by decide)⟩
  refine ⟨?_, hheader, ?_⟩
  · rw [List.length_append, hlen, ← hrest, List.length_append, hb, List.length_append,
      datapadding, List.length_replicate, length_toLE]
  · rw [data, hheader, List.drop_left' hlen, ← hrest]
    exact List.take_left' hb

end packed

end ThreadSwitch.Uf2
