import Mathlib.Data.List.Range
import ThreadSwitch.Uf2.Pack

/-!
# Binaries to UF2

`convert_to_uf2` cuts a binary into blocks of 256 bytes, the last one filled up with
zeros. `bin_round_trip`: converted back it is the binary filled up, at its base address.
-/

namespace ThreadSwitch.Uf2

open ThreadSwitch.Lib

/-- `chunk`, filled up with zeros to 256 bytes. -/
def padChunk (chunk : Bytes) : Bytes := chunk ++ List.replicate (256 - chunk.length) 0

/-- `convert_to_uf2`. -/
def convertToUf2 (familyid appstartaddr : Int) (fileContent : Bytes) : Except PyError Converted :=
  let numblocks := (fileContent.length + 255) / 256
  ((List.range numblocks).mapM fun blockno =>
    let ptr := 256 * blockno
    let chunk := padChunk ((fileContent.drop ptr).take 256)
    (packBlock familyid (ptr + appstartaddr) blockno numblocks chunk).bind fun block =>
      if block.length = 512 then .ok block else .error .assertionError).map fun outp =>
    ⟨outp.flatten, some appstartaddr, none⟩

/-- The content filled up with zeros to whole blocks. -/
def padded (fileContent : Bytes) : Bytes :=
  fileContent ++ List.replicate ((256 - fileContent.length % 256) % 256) 0

theorem length_padChunk {chunk : Bytes} (h : chunk.length ≤ 256) : (padChunk chunk).length = 256 := by
  rw [padChunk, List.length_append, List.length_replicate]
  omega

/-- The data of block `i` of a binary. -/
def pieceAt (appstartaddr : Int) (fileContent : Bytes) (i : Nat) : Piece where
  addr := (256 * i : Nat) + appstartaddr
  bytes := padChunk ((fileContent.drop (256 * i)).take 256)
  full := length_padChunk (by rw [List.length_take]; omega)

/-- The pieces of a binary, numbered. -/
def binPieces (appstartaddr : Int) (fileContent : Bytes) : List (Piece × Nat) :=
  (List.range ((fileContent.length + 255) / 256)).map fun i =>
    (pieceAt appstartaddr fileContent i, i)

section
variable {familyid appstartaddr : Int} {fileContent : Bytes}

theorem padChunk_append_padded (fileContent : Bytes) (hne : fileContent ≠ []) :
    padChunk (fileContent.take 256) ++ padded (fileContent.drop 256) = padded fileContent := by
  have hpos := List.length_pos_of_ne_nil hne
  rcases Nat.lt_or_ge 256 fileContent.length with hlen | hlen
  · have htake : (fileContent.take 256).length = 256 := by rw [List.length_take]; omega
    have hmod : (fileContent.drop 256).length % 256 = fileContent.length % 256 := by
      rw [List.length_drop]
      omega
    rw [padChunk, htake, padded, hmod, padded, Nat.sub_self, List.replicate_zero, List.append_nil,
      ← List.append_assoc, List.take_append_drop]
  · have hfill : (256 - fileContent.length % 256) % 256 = 256 - fileContent.length := by omega
    rw [padChunk, padded, padded, List.take_of_length_le hlen, List.drop_of_length_le hlen, hfill]
    simp

/-- The pieces make up the binary. -/
theorem flatMap_pieces (fileContent : Bytes) :
    (List.range ((fileContent.length + 255) / 256)).flatMap
      (fun i => padChunk ((fileContent.drop (256 * i)).take 256)) = padded fileContent := by
  induction hn : (fileContent.length + 255) / 256 generalizing fileContent with
  | zero =>
    have hnil : fileContent = [] := List.eq_nil_of_length_eq_zero (by omega)
    rw [hnil]
    rfl
  | succ n ih =>
    have hne : fileContent ≠ [] := fun h => by rw [h] at hn; simp at hn
    have hrest : ((fileContent.drop 256).length + 255) / 256 = n := by
      rw [List.length_drop]
      omega
    rw [List.range_succ_eq_map, List.flatMap_cons, List.flatMap_map, ← padChunk_append_padded _ hne,
      ← ih (fileContent.drop 256) hrest]
    congr 1
    refine List.flatMap_congr fun i _ => ?_
    rw [List.drop_drop, Nat.mul_succ, Nat.add_comm]

/-- The assertion on the length of a block never fails. -/
theorem packBlock_asserted (addr : Int) (blockno numblocks : Nat) {chunk : Bytes}
    (h : chunk.length = 256) :
    (packBlock familyid addr blockno numblocks chunk).bind (fun block =>
      if block.length = 512 then .ok block else .error .assertionError) =
      packBlock familyid addr blockno numblocks chunk := by
  cases hb : packBlock familyid addr blockno numblocks chunk with
  | error e => rfl
  | ok block => rw [Except.bind, if_pos (packBlock_spec h hb).1]

theorem convertToUf2_iff {r : Converted} :
    convertToUf2 familyid appstartaddr fileContent = .ok r ↔
      ∃ blocks, Packed familyid ((fileContent.length + 255) / 256)
        (binPieces appstartaddr fileContent) blocks ∧ r = ⟨blocks.flatten, some appstartaddr, none⟩ := by
  have hassert : ∀ blockno : Nat, _ := fun blockno =>
    @packBlock_asserted familyid (((256 * blockno : Nat) : Int) + appstartaddr) blockno
      ((fileContent.length + 255) / 256) _ (pieceAt appstartaddr fileContent blockno).full
  simp only [convertToUf2, map_eq_ok_iff, mapM_eq_ok_iff, Packed, binPieces,
    List.forall₂_map_left_iff]
  simp only [pieceAt] at hassert ⊢
  simp only [hassert]

variable (appstartaddr fileContent) in
theorem flatMap_binPieces :
    (binPieces appstartaddr fileContent).flatMap (fun p => p.1.bytes) = padded fileContent := by
  rw [binPieces, List.flatMap_map]
  exact flatMap_pieces fileContent

variable (appstartaddr fileContent) in
theorem isChain_binPieces :
    (binPieces appstartaddr fileContent).IsChain fun p q => q.1.addr = p.1.addr + 256 := by
  rw [binPieces, List.isChain_map]
  cases hn : (fileContent.length + 255) / 256 with
  | zero => simp
  | succ n =>
    refine (List.isChain_range_succ _ n).mpr fun i _ => ?_
    simp only [pieceAt]
    omega

/-- A binary is converted exactly when all its addresses, and the family id, are words. -/
theorem convertToUf2_isOk_iff (hne : fileContent ≠ []) :
    (∃ r, convertToUf2 familyid appstartaddr fileContent = .ok r) ↔
      IsWord familyid ∧ 0 ≤ appstartaddr ∧
        256 * ((fileContent.length - 1) / 256 : Nat) + appstartaddr < 2 ^ 32 := by
  have hlen := List.length_pos_of_ne_nil hne
  have hpacked : (∃ r, convertToUf2 familyid appstartaddr fileContent = .ok r) ↔
      ∃ blocks, Packed familyid ((fileContent.length + 255) / 256)
        (binPieces appstartaddr fileContent) blocks := by
    simp only [convertToUf2_iff]
    exact ⟨fun ⟨_, blocks, hp, _⟩ => ⟨blocks, hp⟩, fun ⟨blocks, hp⟩ => ⟨_, blocks, hp, rfl⟩⟩
  rw [hpacked, packed_exists_iff]
  simp only [binPieces, List.forall_mem_map, List.mem_range, pieceAt, IsWord]
  refine ⟨fun hall => ?_, fun ⟨hf, h0, h32⟩ i hi => ?_⟩
  · obtain ⟨hf, hfirst, -, -⟩ := hall 0 (by omega)
    obtain ⟨-, hlast, -, -⟩ := hall ((fileContent.length - 1) / 256) (by omega)
    exact ⟨hf, by omega, hlast.2⟩
  · exact ⟨hf, by omega, by omega, by omega⟩

variable (appstartaddr) in
theorem binPieces_cons (hne : fileContent ≠ []) : ∃ rest, binPieces appstartaddr fileContent =
    (pieceAt appstartaddr fileContent 0, 0) :: rest := by
  have hlen := List.length_pos_of_ne_nil hne
  obtain ⟨n, hn⟩ : ∃ n, (fileContent.length + 255) / 256 = n + 1 :=
    ⟨(fileContent.length - 1) / 256, by omega⟩
  exact ⟨_, by rw [binPieces, hn, List.range_succ_eq_map, List.map_cons]⟩

/-- **A binary survives the round trip**: the file it is converted to is converted back to
the binary, filled up to whole blocks, and to its base address. Asked for another family,
nothing comes back. -/
theorem bin_round_trip {asked base : Int} {r : Converted} (hne : fileContent ≠ [])
    (h : convertToUf2 familyid appstartaddr fileContent = .ok r) :
    ∃ info, convertFromUf2 asked base r.outbuf = .ok
      (if asked = 0 ∨ asked = familyid then ⟨padded fileContent, some appstartaddr, info⟩
        else ⟨[], some base, info⟩) := by
  obtain ⟨blocks, hpacked, rfl⟩ := convertToUf2_iff.mp h
  obtain ⟨rest, hpieces⟩ := binPieces_cons appstartaddr hne
  have hchain := isChain_binPieces appstartaddr fileContent
  have hdata := flatMap_binPieces appstartaddr fileContent
  rw [hpieces] at hpacked hchain hdata
  split
  · rename_i hasked
    refine (convertFromUf2_packed_iff hpacked).mpr ⟨hchain, ?_⟩
    rw [if_pos hasked, hdata]
    exact ⟨rfl, by simp [pieceAt]⟩
  · rename_i hasked
    refine (convertFromUf2_packed_iff hpacked).mpr ⟨hchain, ?_⟩
    rw [if_neg hasked]
    exact ⟨rfl, rfl⟩

end

end ThreadSwitch.Uf2
