import Mathlib.Data.List.Forall2
import ThreadSwitch.Uf2.Decode

/-!
# Files of packed blocks

Both conversions to UF2 pack blocks of 256 bytes one after the other, numbered from 0, all
with the one family id. `Packed` says that a list of blocks was made so. What such a file
means (`contents_packed`) and what becomes of it when it is converted back
(`convertFromUf2_packed_iff`) does not depend on which of the two made it.
-/

namespace ThreadSwitch.Uf2

open ThreadSwitch.Lib

/-- The data of a block, and where it goes. -/
structure Piece where
  addr : Int
  bytes : Bytes
  full : bytes.length = 256

/-- The blocks are those of the pieces, of `numblocks` altogether. -/
def Packed (familyid : Int) (numblocks : Nat) (pieces : List (Piece × Nat)) (blocks : List Bytes) :
    Prop :=
  List.Forall₂ (fun p block =>
    packBlock familyid p.1.addr p.2 numblocks p.1.bytes = .ok block) pieces blocks

theorem mapM_eq_ok_iff {α β : Type} {f : α → Except PyError β} {xs : List α} {ys : List β} :
    xs.mapM f = .ok ys ↔ List.Forall₂ (fun x y => f x = .ok y) xs ys := by
  induction xs generalizing ys with
  | nil =>
    rw [List.mapM_nil, List.forall₂_nil_left_iff]
    exact ⟨fun h => by cases h; rfl, fun h => by rw [h]; rfl⟩
  | cons x xs ih =>
    rw [List.mapM_cons, List.forall₂_cons_left_iff]
    cases hx : f x with
    | error e => exact iff_of_false (by rintro ⟨⟩) (by rintro ⟨_, _, h, -⟩; cases h)
    | ok y =>
      cases hxs : xs.mapM f with
      | error e =>
        refine iff_of_false (by rintro ⟨⟩) ?_
        rintro ⟨_, zs, -, hall, -⟩
        rw [ih.mpr hall] at hxs
        cases hxs
      | ok zs =>
        refine ⟨fun h => ?_, ?_⟩
        · cases h
          exact ⟨y, zs, rfl, ih.mp hxs, rfl⟩
        · rintro ⟨_, zs', h, hall, rfl⟩
          cases h
          rw [ih.mpr hall] at hxs
          cases hxs
          rfl

section
variable {familyid : Int} {numblocks : Nat} {pieces : List (Piece × Nat)} {blocks : List Bytes}

theorem packed_exists_iff :
    (∃ blocks, Packed familyid numblocks pieces blocks) ↔
      ∀ p ∈ pieces, IsWord familyid ∧ IsWord p.1.addr ∧ IsWord p.2 ∧ IsWord numblocks := by
  induction pieces with
  | nil => exact ⟨(fun _ p hp => by cases hp), fun _ => ⟨[], .nil⟩⟩
  | cons p pieces ih =>
    rw [List.forall_mem_cons, ← ih, ← packBlock_isOk_iff]
    refine ⟨?_, ?_⟩
    · rintro ⟨_, hall⟩
      cases hall with
      | @cons _ block _ blocks hb hall => exact ⟨⟨block, hb⟩, blocks, hall⟩
    · rintro ⟨⟨block, hb⟩, blocks, hall⟩
      exact ⟨block :: blocks, .cons hb hall⟩

/-- What is in the block of a piece. -/
theorem Packed.spec (h : Packed familyid numblocks pieces blocks) :
    blocks.map unpackHeader =
        pieces.map (fun p => packedHeader familyid p.1.addr p.2 numblocks) ∧
      blocks.map data = pieces.map (fun p => p.1.bytes) ∧ (∀ b ∈ blocks, b.length = 512) ∧
      ∀ p ∈ pieces, IsWord p.1.addr := by
  induction h with
  | nil => simp
  | @cons p block pieces blocks hb _ ih =>
    obtain ⟨hheads, hdata, hlens, hwords⟩ := ih
    obtain ⟨hlen, hhead, hdat⟩ := packBlock_spec p.1.full hb
    have hword := (packBlock_isOk_iff.mp ⟨block, hb⟩).2.1
    refine ⟨?_, ?_, List.forall_mem_cons.mpr ⟨hlen, hlens⟩, List.forall_mem_cons.mpr ⟨hword, hwords⟩⟩
    · rw [List.map_cons, List.map_cons, hhead, hheads]
    · rw [List.map_cons, List.map_cons, hdat, hdata]

theorem packedHeader_flash (familyid addr : Int) (blockno numblocks : Nat) :
    (packedHeader familyid addr blockno numblocks).noFlash = false := by
  unfold Header.noFlash packedHeader familyFlags
  dsimp only
  split <;> rfl

theorem packedHeader_hasFamily (familyid addr : Int) (blockno numblocks : Nat) :
    (packedHeader familyid addr blockno numblocks).hasFamily = decide (familyid ≠ 0) := by
  unfold Header.hasFamily packedHeader familyFlags
  dsimp only
  by_cases h : familyid = 0 <;> simp [h]

theorem Packed.mem_header (h : Packed familyid numblocks pieces blocks) {b : Bytes}
    (hb : b ∈ blocks) :
    ∃ addr blockno, unpackHeader b = packedHeader familyid addr blockno numblocks := by
  have hmem : unpackHeader b ∈ pieces.map (fun p =>
      packedHeader familyid p.1.addr p.2 numblocks) := h.spec.1 ▸ List.mem_map_of_mem hb
  obtain ⟨p, -, hp⟩ := List.mem_map.mp hmem
  exact ⟨p.1.addr, p.2, hp.symm⟩

theorem Packed.chunks (h : Packed familyid numblocks pieces blocks) :
    chunks 512 blocks.flatten = blocks := chunks_flatten (by decide) h.spec.2.2.1

theorem Packed.flashBlocks (h : Packed familyid numblocks pieces blocks) :
    flashBlocks blocks.flatten = blocks := by
  rw [Uf2.flashBlocks, h.chunks, flashed, List.filter_eq_self]
  intro b hb
  obtain ⟨addr, blockno, hhead⟩ := h.mem_header hb
  rw [hhead, packedHeader_flash]
  rfl

theorem Packed.flashHeaders (h : Packed familyid numblocks pieces blocks) :
    flashHeaders blocks.flatten =
      pieces.map fun p => packedHeader familyid p.1.addr p.2 numblocks := by
  rw [Uf2.flashHeaders, h.flashBlocks, h.spec.1]

theorem Packed.readable (h : Packed familyid numblocks pieces blocks) : Readable blocks.flatten := by
  refine ⟨fun b hb => ?_, fun b hb => ?_⟩
  · rw [h.chunks] at hb
    obtain ⟨addr, blockno, hhead⟩ := h.mem_header hb
    rw [hhead]
    exact ⟨rfl, rfl⟩
  · rw [h.flashBlocks] at hb
    obtain ⟨addr, blockno, hhead⟩ := h.mem_header hb
    rw [hhead]
    show 256 ≤ 476
    omega

theorem Packed.oneFamily (h : Packed familyid numblocks pieces blocks) :
    OneFamily (Uf2.flashHeaders blocks.flatten) := by
  refine ⟨decide (familyid ≠ 0), familyid.toNat, fun hd hhd => ?_⟩
  rw [h.flashHeaders] at hhd
  obtain ⟨p, -, rfl⟩ := List.mem_map.mp hhd
  exact ⟨packedHeader_hasFamily _ _ _ _, fun _ => rfl⟩

/-- **Flashing the file writes each piece at its address.** -/
theorem contents_packed (h : Packed familyid numblocks pieces blocks) :
    contents blocks.flatten = pieces.flatMap fun p => placed p.1.addr.toNat p.1.bytes := by
  obtain ⟨hheads, hdata, -, -⟩ := h.spec
  have hzip : blocks.map (fun b => ((unpackHeader b).addr, data b)) =
      pieces.map fun p => (p.1.addr.toNat, p.1.bytes) := by
    refine List.ext_getElem (by simpa using congrArg List.length hheads) fun i h1 h2 => ?_
    have hi : i < pieces.length := by simpa using h2
    have hb : i < blocks.length := by simpa using h1
    have hhead : unpackHeader blocks[i] = packedHeader familyid pieces[i].1.addr pieces[i].2 numblocks := by
      have := List.getElem_of_eq hheads (by simpa using hb)
      simpa using this
    have hdat : data blocks[i] = pieces[i].1.bytes := by
      have := List.getElem_of_eq hdata (by simpa using hb)
      simpa using this
    simp [hhead, hdat, packedHeader]
  have hmap : (blocks.map fun b => ((unpackHeader b).addr, data b)).flatMap
      (fun q => placed q.1 q.2) = (pieces.map fun p => (p.1.addr.toNat, p.1.bytes)).flatMap
        fun q => placed q.1 q.2 := by rw [hzip]
  rw [contents, h.flashBlocks]
  simpa [List.flatMap_map] using hmap

/-- Pieces that follow each other are written as one. -/
theorem Packed.placed_of_chain {first : Piece × Nat}
    (h : Packed familyid numblocks (first :: pieces) blocks)
    (hchain : (first :: pieces).IsChain fun p q => q.1.addr = p.1.addr + 256) :
    placed first.1.addr.toNat ((first :: pieces).flatMap fun p => p.1.bytes) =
      contents blocks.flatten := by
  have hpairs : ((first :: pieces).map fun p => (p.1.addr.toNat, p.1.bytes)).IsChain
      fun p q => q.1 = p.1 + p.2.length := by
    rw [List.isChain_map]
    refine (List.IsChain.iff_of_mem_imp fun p q hp hq => ?_).mp hchain
    have h1 := (h.spec.2.2.2 p hp).1
    have h2 := (h.spec.2.2.2 q hq).1
    rw [p.1.full]
    omega
  have hplaced := placed_flatMap hpairs
  rw [← List.map_cons (f := fun p : Piece × Nat => (p.1.addr.toNat, p.1.bytes)), List.flatMap_map,
    List.flatMap_map] at hplaced
  rw [contents_packed h]
  exact hplaced

theorem Packed.isWord (h : Packed familyid numblocks pieces blocks) (hne : pieces ≠ []) :
    IsWord familyid := by
  cases h with
  | nil => exact absurd rfl hne
  | cons hb _ => exact (packBlock_isOk_iff.mp ⟨_, hb⟩).1

/-- A packed file is converted back exactly when its pieces follow each other; asked for its
family, or for none, all its data comes out, and nothing when asked for another family. -/
theorem convertFromUf2_packed_iff {asked appstartaddr start : Int} {outbuf : Bytes}
    {first : Piece × Nat} (h : Packed familyid numblocks (first :: pieces) blocks) :
    (∃ info, convertFromUf2 asked appstartaddr blocks.flatten = .ok ⟨outbuf, some start, info⟩) ↔
      (first :: pieces).IsChain (fun p q => q.1.addr = p.1.addr + 256) ∧
        if asked = 0 ∨ asked = familyid then
          outbuf = (first :: pieces).flatMap (fun p => p.1.bytes) ∧ start = first.1.addr
        else outbuf = [] ∧ start = appstartaddr := by
  have hword := h.isWord (List.cons_ne_nil _ _)
  have hfam : (familyid.toNat : Int) = familyid := Int.toNat_of_nonneg hword.1
  have haddr : ∀ p ∈ first :: pieces, (p.1.addr.toNat : Int) = p.1.addr := fun p hp =>
    Int.toNat_of_nonneg (h.spec.2.2.2 p hp).1
  have hchain : (flashHeaders blocks.flatten).IsChain (fun p hd => hd.addr = p.ending) ↔
      (first :: pieces).IsChain (fun p q => q.1.addr = p.1.addr + 256) := by
    rw [h.flashHeaders, List.isChain_map]
    refine List.IsChain.iff_of_mem_imp fun p q hp hq => ?_
    have h1 := haddr p hp
    have h2 := haddr q hq
    simp only [packedHeader, Header.ending]
    omega
  have hsel : ∀ b ∈ blocks, Selects asked (unpackHeader b) ↔ asked = 0 ∨ asked = familyid := by
    intro b hb
    obtain ⟨addr, blockno, hhead⟩ := h.mem_header hb
    rw [Selects, hhead, packedHeader_hasFamily, decide_eq_true_iff, packedHeader, hfam]
    refine ⟨Or.imp id And.right, ?_⟩
    rintro (h0 | rfl)
    · exact .inl h0
    · exact or_iff_not_imp_left.mpr fun hne => ⟨hne, rfl⟩
  have hstart : startAddr asked appstartaddr (flashHeaders blocks.flatten) =
      if asked = 0 ∨ asked = familyid then first.1.addr else appstartaddr := by
    rw [h.flashHeaders, List.map_cons, startAddr, packedHeader, hfam, haddr first (by simp)]
  rw [one_family_iff h.oneFamily, hchain, hstart, h.flashBlocks]
  have hflat : (first :: pieces).flatMap (fun p => p.1.bytes) = blocks.flatMap data := by
    rw [List.flatMap_def, List.flatMap_def, h.spec.2.1]
  by_cases hasked : asked = 0 ∨ asked = familyid
  · rw [if_pos hasked, if_pos hasked, hflat, List.filter_eq_self.mpr fun b hb => by
      simp [(hsel b hb).mpr hasked]]
    exact ⟨fun h' => h'.2, fun h' => ⟨h.readable, h'⟩⟩
  · have hnone : (blocks.filter fun b => Selects asked (unpackHeader b)) = [] :=
      List.filter_eq_nil_iff.mpr fun b hb => by simp [mt (hsel b hb).mp hasked]
    rw [if_neg hasked, if_neg hasked, hnone]
    exact ⟨fun h' => h'.2, fun h' => ⟨h.readable, h'⟩⟩

end

end ThreadSwitch.Uf2
