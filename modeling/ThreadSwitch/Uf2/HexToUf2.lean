import Mathlib.Data.List.Perm.Subperm
import ThreadSwitch.Lib.Paged
import ThreadSwitch.Uf2.Hex
import ThreadSwitch.Uf2.Pack

/-!
# HEX files to UF2

`convert_from_hex_to_uf2` stores each byte of data in the block of its page, 256 bytes of
which the others are zero. When a byte is not on the page of the current block it starts a
new one, also if that page has a block already: flashed later, the new one wipes out what
the old one holds.
-/

namespace ThreadSwitch.Uf2

open ThreadSwitch.Lib

structure Block where
  addr : Nat
  bytes : Vector UInt8 256

namespace Block

/-- `Block(addr)`. -/
def new (addr : Nat) : Block := ⟨addr, Vector.replicate 256 0⟩

/-- `self.bytes[addr & 0xFF] = b`. -/
def put (addr : Nat) (b : UInt8) (block : Block) : Block :=
  { block with bytes := block.bytes.set (addr % 256) b (Nat.mod_lt _ (Nat.zero_lt_succ _)) }

def encode (familyid : Int) (block : Block) (blockno numblocks : Nat) : Except PyError Bytes :=
  packBlock familyid block.addr blockno numblocks block.bytes.toList

end Block

/-- `addr & ~0xFF`. -/
def pageAddr (addr : Nat) : Nat := addr / 256 * 256

/-- A block for the byte at `addr`; the newest comes first, it is `currblock`. -/
def enterBlock (addr : Nat) (blocks : List Block) : List Block :=
  match blocks with
  | [] => [Block.new (pageAddr addr)]
  | currblock :: _ =>
    if pageAddr currblock.addr ≠ pageAddr addr then Block.new (pageAddr addr) :: blocks else blocks

/-- One round of the loop over the data. -/
def storeByte (blocks : List Block) (w : Nat × UInt8) : List Block :=
  (enterBlock w.1 blocks).modifyHead (Block.put w.1 w.2)

structure HexState where
  appstartaddr : Option Nat
  upper : Nat
  blocks : List Block

namespace HexState

def start : HexState where
  appstartaddr := none
  upper := 0
  blocks := []

/-- What a record does, if it is not the last. -/
def apply (s : HexState) : Record → HexState
  | .upper upper => { s with upper := upper }
  | .data offset bytes =>
    let addr := s.upper + offset
    { s with
      appstartaddr := s.appstartaddr.or (some addr)
      blocks := (placed addr bytes).foldl storeByte s.blocks }
  | _ => s

end HexState

/-- The loop over the lines. -/
def hexLoop (s : HexState) : List (List HexChar) → Except PyError HexState
  | [] => .ok s
  | [] :: _ => .error .indexError
  | (c :: chars) :: lines =>
    if c ≠ .colon then hexLoop s lines
    else (recBytes chars).bind fun rec => (record rec).bind fun
      | .endOfFile => .ok s
      | r => hexLoop (s.apply r) lines

/-- `convert_from_hex_to_uf2`. -/
def convertFromHexToUf2 (familyid : Int) (buf : List HexChar) : Except PyError Converted :=
  (hexLoop HexState.start (buf.splitOn .lf)).bind fun s =>
    let blocks := s.blocks.reverse
    let numblocks := blocks.length
    (blocks.zipIdx.mapM fun (b : Block × Nat) => b.1.encode familyid b.2 numblocks).map fun resfile =>
      ⟨resfile.flatten, s.appstartaddr.map fun addr : Nat => (addr : Int), none⟩

/-! ## What a file says -/

/-- The data of records, with its addresses. -/
def hexData (upper : Nat) : List Record → List (Nat × Bytes)
  | [] => []
  | .upper upper :: rs => hexData upper rs
  | .data offset bytes :: rs => (upper + offset, bytes) :: hexData upper rs
  | _ :: rs => hexData upper rs

def writesOf (data : List (Nat × Bytes)) : List (Nat × UInt8) :=
  data.flatMap fun d => placed d.1 d.2

/-- The bytes that a file puts into memory, with their addresses, in order. -/
def hexWrites (rs : List Record) : List (Nat × UInt8) := writesOf (hexData 0 rs)

theorem hexLoop_eq (s : HexState) (lines : List (List HexChar)) :
    hexLoop s lines = (readRecords lines).map fun rs => rs.foldl HexState.apply s := by
  induction lines generalizing s with
  | nil => rfl
  | cons line lines ih =>
    cases line with
    | nil => rfl
    | cons c chars =>
      rw [hexLoop, readRecords]
      split
      · exact ih s
      cases recBytes chars with
      | error e => rfl
      | ok rec =>
        cases hr : record rec with
        | error e => simp only [Except.bind, hr, Except.map]
        | ok r =>
          cases r <;> simp only [Except.bind, hr, ih] <;> cases readRecords lines <;> rfl

theorem foldl_apply (rs : List Record) (s : HexState) :
    (rs.foldl HexState.apply s).blocks = (writesOf (hexData s.upper rs)).foldl storeByte s.blocks ∧
      (rs.foldl HexState.apply s).appstartaddr =
        s.appstartaddr.or ((hexData s.upper rs).head?.map Prod.fst) := by
  induction rs generalizing s with
  | nil => simp [hexData, writesOf]
  | cons r rs ih =>
    obtain ⟨hblocks, hstart⟩ := ih (s.apply r)
    rw [List.foldl_cons, hblocks, hstart]
    cases r with
    | data offset bytes =>
      simp [HexState.apply, hexData, writesOf, List.foldl_append]
    | _ => exact ⟨rfl, rfl⟩

/-! ## The blocks -/

/-- The blocks of a file, the newest first. -/
def blocksOf (ws : List (Nat × UInt8)) : List Block := ws.foldl storeByte []

theorem blocksOf_snoc (ws : List (Nat × UInt8)) (w : Nat × UInt8) :
    blocksOf (ws ++ [w]) = (enterBlock w.1 (blocksOf ws)).modifyHead (Block.put w.1 w.2) := by
  rw [blocksOf, List.foldl_append]
  rfl

@[simp] theorem pageAddr_pageAddr (addr : Nat) : pageAddr (pageAddr addr) = pageAddr addr := by
  unfold pageAddr
  omega

theorem pageAddr_eq_iff {a b : Nat} : pageAddr a = pageAddr b ↔ a / 256 = b / 256 := by
  unfold pageAddr
  omega

@[simp] theorem map_addr_modifyHead (addr : Nat) (b : UInt8) (blocks : List Block) :
    (blocks.modifyHead (Block.put addr b)).map Block.addr = blocks.map Block.addr := by
  cases blocks <;> rfl

/-- The current block is that of the byte stored last. -/
theorem head_blocksOf (ws : List (Nat × UInt8)) :
    ((blocksOf ws).map Block.addr).head? = ws.getLast?.map fun w => pageAddr w.1 := by
  induction ws using List.reverseRecOn with
  | nil => rfl
  | append_singleton ws w ih =>
    rw [blocksOf_snoc, map_addr_modifyHead, List.getLast?_concat, Option.map_some]
    cases hb : blocksOf ws with
    | nil => rfl
    | cons currblock older =>
      obtain ⟨v, -, hv⟩ := Option.map_eq_some_iff.mp (show ws.getLast?.map _ = some currblock.addr by
        rw [← ih, hb]; rfl)
      rw [enterBlock]
      split
      · rfl
      · rename_i hsame
        rw [← hv, pageAddr_pageAddr, not_not, hv] at hsame
        rw [List.map_cons, List.head?_cons, hsame]

/-- A new block for each visit. -/
theorem enterBlock_blocksOf (ws : List (Nat × UInt8)) (addr : Nat) :
    enterBlock addr (blocksOf ws) =
      if (visits 256 ws).getLast? = some (addr / 256) then blocksOf ws
      else Block.new (pageAddr addr) :: blocksOf ws := by
  have hhead := head_blocksOf ws
  rw [getLast?_visits]
  cases hb : blocksOf ws with
  | nil =>
    rw [hb] at hhead
    have hnil : ws.getLast? = none := by simpa using hhead.symm
    rw [hnil, Option.map_none, if_neg (by simp)]
    rfl
  | cons currblock older =>
    rw [hb, List.map_cons, List.head?_cons, eq_comm, Option.map_eq_some_iff] at hhead
    obtain ⟨v, hv, hcurr⟩ := hhead
    rw [hv, Option.map_some, enterBlock, ← hcurr, pageAddr_pageAddr, ite_not]
    simp only [pageAddr_eq_iff, Option.some.injEq]

/-- One block for each visit. -/
theorem addrs_blocksOf (ws : List (Nat × UInt8)) :
    (blocksOf ws).reverse.map Block.addr = (visits 256 ws).map fun p => p * 256 := by
  induction ws using List.reverseRecOn with
  | nil => rfl
  | append_singleton ws w ih =>
    rw [List.map_reverse] at ih ⊢
    rw [blocksOf_snoc, map_addr_modifyHead, enterBlock_blocksOf, visits_snoc]
    split
    · exact ih
    · rw [List.map_cons, List.reverse_cons, ih, List.map_append]
      rfl

/-- The byte of a block for an address. -/
def Block.get (block : Block) (addr : Nat) : UInt8 :=
  have := Nat.mod_lt addr (Nat.zero_lt_succ 255)
  block.bytes[addr % 256]

@[simp] theorem Block.get_new (page addr : Nat) : (Block.new page).get addr = 0 := by
  simp [Block.get, Block.new]

@[simp] theorem Block.get_put (block : Block) (addr : Nat) (b : UInt8) (a : Nat) :
    (block.put addr b).get a = if addr % 256 = a % 256 then b else block.get a := by
  simp [Block.get, Block.put, Vector.getElem_set]

/-- What the blocks hold at an address: what the newest block of its page holds. -/
def held (blocks : List Block) (a : Nat) : Option UInt8 :=
  (blocks.find? fun block => block.addr = pageAddr a).map fun block => block.get a

theorem held_cons (block : Block) (blocks : List Block) (a : Nat) :
    held (block :: blocks) a =
      if block.addr = pageAddr a then some (block.get a) else held blocks a := by
  rw [held, List.find?_cons]
  by_cases h : block.addr = pageAddr a <;> simp [h, held]

theorem held_put {block : Block} {addr : Nat} (h : block.addr = pageAddr addr) (b : UInt8)
    (older : List Block) (a : Nat) :
    held (block.put addr b :: older) a = if addr = a then some b else held (block :: older) a := by
  have haddr : (block.put addr b).addr = pageAddr addr := h
  simp only [held_cons, haddr, h, pageAddr_eq_iff, Block.get_put]
  by_cases hpage : addr / 256 = a / 256
  · have hiff : addr % 256 = a % 256 ↔ addr = a := by omega
    simp only [hpage, hiff, if_true]
    split <;> rfl
  · have hne : addr ≠ a := fun ha => hpage (by rw [ha])
    simp only [hpage, hne, if_false]

/-- A byte stored is held, and the others that are held stay, but for those on a page that
is visited anew. -/
theorem held_snoc (ws : List (Nat × UInt8)) (w : Nat × UInt8) (a : Nat) :
    held (blocksOf (ws ++ [w])) a =
      if w.1 = a then some w.2
      else if (visits 256 ws).getLast? ≠ some (w.1 / 256) ∧ w.1 / 256 = a / 256 then some 0
      else held (blocksOf ws) a := by
  have hhead := head_blocksOf ws
  rw [blocksOf_snoc, enterBlock_blocksOf, getLast?_visits]
  by_cases hlast : (ws.getLast?.map fun v => v.1 / 256) = some (w.1 / 256)
  · obtain ⟨v, hv, hvw⟩ := Option.map_eq_some_iff.mp hlast
    rw [hv, Option.map_some, List.head?_map, Option.map_eq_some_iff] at hhead
    obtain ⟨currblock, hcurr, haddr⟩ := hhead
    obtain ⟨older, hblocks⟩ := List.head?_eq_some_iff.mp hcurr
    rw [pageAddr_eq_iff.mpr hvw] at haddr
    rw [if_pos hlast, hblocks, List.modifyHead_cons, held_put haddr]
    simp [hlast]
  · rw [if_neg hlast, List.modifyHead_cons, held_put rfl, held_cons]
    have hnew : (Block.new (pageAddr w.1)).addr = pageAddr a ↔ w.1 / 256 = a / 256 := pageAddr_eq_iff
    simp only [hnew, hlast, Block.get_new, ne_eq, not_false_iff, true_and]

/-- **The blocks hold what the last visit to a page wrote**, and zero elsewhere on it. -/
theorem held_blocksOf (ws : List (Nat × UInt8)) (a : Nat) :
    held (blocksOf ws) a = if a / 256 ∈ visits 256 ws then
      some ((image (lastRun 256 (a / 256) ws) a).getD 0) else none := by
  induction ws using List.reverseRecOn with
  | nil => rfl
  | append_singleton ws w ih =>
    have hvisit : a / 256 ∈ visits 256 (ws ++ [w]) ↔
        a / 256 ∈ visits 256 ws ∨ w.1 / 256 = a / 256 := by
      simp [mem_visits, or_and_right, exists_or]
    rw [held_snoc, ih]
    by_cases hp : w.1 / 256 = a / 256
    · rw [if_pos (hvisit.mpr (.inr hp)), lastRun_snoc_pos hp, image_snoc, getLast?_visits]
      by_cases ha : w.1 = a
      · rw [if_pos ha, if_pos ha, Option.getD_some]
      rw [if_neg ha, if_neg ha]
      by_cases hlast : (ws.getLast?.map fun v => v.1 / 256) = some (w.1 / 256)
      · obtain ⟨v, hv, hvw⟩ := Option.map_eq_some_iff.mp hlast
        have hmem : a / 256 ∈ visits 256 ws :=
          mem_visits.mpr ⟨v, List.mem_of_getLast? hv, hvw.trans hp⟩
        rw [if_neg fun h => h.1 hlast, if_pos hmem, lastRun_eq_openRun ⟨v, hv, hvw.trans hp⟩]
      · rw [if_pos ⟨hlast, hp⟩, openRun_eq_nil]
        · rfl
        · intro v hv hva
          exact hlast (by rw [Option.mem_def.mp hv, Option.map_some, hva, hp])
    · have ha : w.1 ≠ a := fun ha => hp (by rw [ha])
      simp only [ha, hp, hvisit, lastRun_snoc_neg hp, and_false, or_false, if_false]

/-! ## What comes out -/

/-- The data of a block. -/
def Block.piece (block : Block) : Piece where
  addr := block.addr
  bytes := block.bytes.toList
  full := by simp

/-- The pieces of a file, numbered. -/
def hexPieces (ws : List (Nat × UInt8)) : List (Piece × Nat) :=
  (blocksOf ws).reverse.zipIdx.map fun b => (b.1.piece, b.2)

theorem length_blocksOf (ws : List (Nat × UInt8)) :
    (blocksOf ws).length = (visits 256 ws).length := by
  simpa using congrArg List.length (addrs_blocksOf ws)

theorem hexPieces_map (ws : List (Nat × UInt8)) :
    (hexPieces ws).map Prod.fst = (blocksOf ws).reverse.map Block.piece := by
  rw [hexPieces, List.map_map]
  show (blocksOf ws).reverse.zipIdx.map (Block.piece ∘ Prod.fst) = _
  rw [← List.map_map, List.zipIdx_map_fst]

theorem flatMap_hexPieces {β : Type} (ws : List (Nat × UInt8)) (f : Piece → List β) :
    (hexPieces ws).flatMap (fun p => f p.1) = (blocksOf ws).reverse.flatMap fun b => f b.piece := by
  have h := congrArg (List.flatMap f) (hexPieces_map ws)
  rwa [List.flatMap_map, List.flatMap_map] at h

theorem addrs_hexPieces (ws : List (Nat × UInt8)) :
    (hexPieces ws).map (fun p => p.1.addr) = (visits 256 ws).map fun p => ((p * 256 : Nat) : Int) := by
  have hcast : ∀ blocks : List Block, (blocks.map Block.piece).map Piece.addr =
      (blocks.map Block.addr).map Nat.cast := fun blocks => by
    rw [List.map_map, List.map_map]
    rfl
  show (hexPieces ws).map (Piece.addr ∘ Prod.fst) = _
  rw [← List.map_map, hexPieces_map, hcast, addrs_blocksOf, List.map_map]
  rfl

/-- The first block is that of the first byte. -/
theorem hexPieces_cons (w : Nat × UInt8) (ws : List (Nat × UInt8)) :
    ∃ first pieces, hexPieces (w :: ws) = first :: pieces ∧
      first.1.addr = (w.1 / 256 * 256 : Nat) := by
  have hhead := congrArg List.head? (addrs_hexPieces (w :: ws))
  rw [List.head?_map, List.head?_map, head?_visits] at hhead
  obtain ⟨first, hfirst, haddr⟩ := Option.map_eq_some_iff.mp hhead
  obtain ⟨pieces, hpieces⟩ := List.head?_eq_some_iff.mp hfirst
  exact ⟨first, pieces, hpieces, haddr⟩

section
variable {familyid : Int} {buf : List HexChar} {r : Converted}

theorem convertFromHexToUf2_iff :
    convertFromHexToUf2 familyid buf = .ok r ↔
      ∃ rs blocks, readRecords (buf.splitOn .lf) = .ok rs ∧
        Packed familyid (visits 256 (hexWrites rs)).length (hexPieces (hexWrites rs)) blocks ∧
        r = ⟨blocks.flatten, (hexData 0 rs).head?.map fun d => (d.1 : Int), none⟩ := by
  rw [convertFromHexToUf2, hexLoop_eq]
  cases hread : readRecords (buf.splitOn .lf) with
  | error e => simp [Except.map, Except.bind]
  | ok rs =>
    obtain ⟨hblocks, hstart⟩ := foldl_apply rs HexState.start
    have hblocks : (rs.foldl HexState.apply HexState.start).blocks = blocksOf (hexWrites rs) := hblocks
    have hstart : (rs.foldl HexState.apply HexState.start).appstartaddr =
      (hexData 0 rs).head?.map Prod.fst := hstart
    show Except.map _ ((rs.foldl HexState.apply HexState.start).blocks.reverse.zipIdx.mapM _) = _ ↔ _
    rw [hblocks, hstart, map_eq_ok_iff, List.length_reverse, length_blocksOf, Option.map_map]
    simp only [mapM_eq_ok_iff, Packed, hexPieces, List.forall₂_map_left_iff, Except.ok.injEq]
    refine ⟨fun ⟨blocks, hall, hr⟩ => ⟨rs, blocks, rfl, hall, hr⟩, ?_⟩
    rintro ⟨_, blocks, rfl, hall, hr⟩
    exact ⟨blocks, hall, hr⟩

theorem mem_hexPieces {ws : List (Nat × UInt8)} {p : Piece × Nat} (hp : p ∈ hexPieces ws) :
    (∃ q ∈ visits 256 ws, p.1.addr = (q * 256 : Nat)) ∧ p.2 < (visits 256 ws).length := by
  have haddr : p.1.addr ∈ (visits 256 ws).map fun q => ((q * 256 : Nat) : Int) :=
    addrs_hexPieces ws ▸ List.mem_map_of_mem hp
  obtain ⟨q, hq, hqp⟩ := List.mem_map.mp haddr
  obtain ⟨⟨b, i⟩, hb, rfl⟩ := List.mem_map.mp hp
  have hi := List.snd_lt_of_mem_zipIdx hb
  rw [List.length_reverse, length_blocksOf, Nat.add_zero] at hi
  exact ⟨⟨q, hq, hqp.symm⟩, hi⟩

/-- The blocks can be packed if all addresses, and the family id, are words. -/
theorem packed_hexPieces_iff {ws : List (Nat × UInt8)} :
    (∃ blocks, Packed familyid (visits 256 ws).length (hexPieces ws) blocks) ↔
      (∀ w ∈ ws, w.1 < 2 ^ 32) ∧
        (ws ≠ [] → IsWord familyid ∧ (visits 256 ws).length < 2 ^ 32) := by
  rw [packed_exists_iff]
  refine ⟨fun h => ⟨fun w hw => ?_, fun hne => ?_⟩, fun ⟨haddr, hrest⟩ p hp => ?_⟩
  · have hmem : ((w.1 / 256 * 256 : Nat) : Int) ∈ (hexPieces ws).map fun p => p.1.addr := by
      rw [addrs_hexPieces]
      exact List.mem_map_of_mem (f := fun q => ((q * 256 : Nat) : Int)) (mem_visits.mpr ⟨w, hw, rfl⟩)
    obtain ⟨p, hp, hpw⟩ := List.mem_map.mp hmem
    have hword := (h p hp).2.1
    rw [hpw, IsWord] at hword
    omega
  · obtain ⟨w, ws, rfl⟩ := List.exists_cons_of_ne_nil hne
    obtain ⟨first, pieces, hpieces, -⟩ := hexPieces_cons w ws
    obtain ⟨hfam, -, -, hnum⟩ := h first (hpieces ▸ List.mem_cons_self)
    exact ⟨hfam, by rw [IsWord] at hnum; omega⟩
  · obtain ⟨⟨q, hq, haddr'⟩, hno⟩ := mem_hexPieces hp
    obtain ⟨w, hw, rfl⟩ := mem_visits.mp hq
    obtain ⟨hfam, hnum⟩ := hrest (List.ne_nil_of_mem hw)
    have hw32 := haddr w hw
    rw [haddr']
    simp only [IsWord] at hfam ⊢
    refine ⟨hfam, ?_, ?_, ?_⟩ <;> omega

/-- A block of 256 bytes at the start of its page. -/
theorem image_block {block : Block} (h : block.addr = pageAddr block.addr) (a : Nat) :
    image (placed block.addr block.bytes.toList) a =
      if block.addr = pageAddr a then some (block.get a) else none := by
  rw [image_placed]
  by_cases hpage : block.addr = pageAddr a
  · have hle : block.addr ≤ a := by
      rw [hpage]
      exact Nat.div_mul_le_self a 256
    have hoff : a - block.addr = a % 256 := by
      rw [hpage]
      unfold pageAddr
      omega
    rw [if_pos hle, if_pos hpage, hoff]
    simp [Block.get, Nat.mod_lt]
  · rw [if_neg hpage]
    split
    · rw [List.getElem?_eq_none]
      simp only [Vector.length_toList]
      unfold pageAddr at *
      omega
    · rfl

theorem image_blocks {blocks : List Block} (h : ∀ b ∈ blocks, b.addr = pageAddr b.addr) (a : Nat) :
    image (blocks.reverse.flatMap fun b => placed b.addr b.bytes.toList) a = held blocks a := by
  induction blocks with
  | nil => rfl
  | cons block blocks ih =>
    obtain ⟨hblock, hrest⟩ := List.forall_mem_cons.mp h
    rw [List.reverse_cons, List.flatMap_append, image_append, ih hrest, held_cons,
      List.flatMap_singleton, image_block hblock]
    split <;> simp

theorem aligned_blocksOf (ws : List (Nat × UInt8)) :
    ∀ b ∈ blocksOf ws, b.addr = pageAddr b.addr := by
  intro b hb
  have hmem : b.addr ∈ (visits 256 ws).map fun p => p * 256 :=
    addrs_blocksOf ws ▸ List.mem_map_of_mem (List.mem_reverse.mpr hb)
  obtain ⟨p, -, hp⟩ := List.mem_map.mp hmem
  unfold pageAddr
  omega

theorem image_packed {ws : List (Nat × UInt8)} {blocks : List Bytes} {numblocks : Nat}
    (h : Packed familyid numblocks (hexPieces ws) blocks) (a : Nat) :
    image (contents blocks.flatten) a = if a / 256 ∈ visits 256 ws then
      some ((image (lastRun 256 (a / 256) ws) a).getD 0) else none := by
  have hpieces : (hexPieces ws).flatMap (fun p => placed p.1.addr.toNat p.1.bytes) =
      (blocksOf ws).reverse.flatMap fun b => placed b.addr b.bytes.toList :=
    flatMap_hexPieces ws fun p => placed p.addr.toNat p.bytes
  rw [contents_packed h, hpieces, image_blocks (aligned_blocksOf _), held_blocksOf]

/-- A HEX file is converted exactly when it can be read and all its addresses are words. -/
theorem hex_isOk_iff :
    (∃ r, convertFromHexToUf2 familyid buf = .ok r) ↔
      ∃ rs, readRecords (buf.splitOn .lf) = .ok rs ∧ (∀ w ∈ hexWrites rs, w.1 < 2 ^ 32) ∧
        (hexWrites rs ≠ [] → IsWord familyid ∧ (visits 256 (hexWrites rs)).length < 2 ^ 32) := by
  simp only [convertFromHexToUf2_iff, ← packed_hexPieces_iff]
  refine ⟨?_, ?_⟩
  · rintro ⟨_, rs, blocks, hread, hpacked, -⟩
    exact ⟨rs, hread, blocks, hpacked⟩
  · rintro ⟨rs, hread, blocks, hpacked⟩
    exact ⟨_, rs, blocks, hread, hpacked, rfl⟩

/-- **Flashing the file puts into memory what the last visits to the pages write**, and zero
where on these pages they write nothing. So what the HEX file says is in memory exactly if
whatever a page got before its last visit, and is not zero, is written then again. -/
theorem hex_contents {rs : List Record} (hread : readRecords (buf.splitOn .lf) = .ok rs)
    (hr : convertFromHexToUf2 familyid buf = .ok r) :
    (∀ a, image (contents r.outbuf) a = if a / 256 ∈ visits 256 (hexWrites rs) then
      some ((image (lastRun 256 (a / 256) (hexWrites rs)) a).getD 0) else none) ∧
    ((∀ a b, image (hexWrites rs) a = some b → image (contents r.outbuf) a = some b) ↔
      ∀ a b, image (hexWrites rs) a = some b → b = 0 ∨
        image (lastRun 256 (a / 256) (hexWrites rs)) a ≠ none) := by
  obtain ⟨rs', blocks, hread', hpacked, rfl⟩ := convertFromHexToUf2_iff.mp hr
  rw [hread] at hread'
  cases hread'
  refine ⟨image_packed hpacked, forall_congr' fun a => forall_congr' fun b => imp_congr_right fun hb => ?_⟩
  have hmem : a / 256 ∈ visits 256 (hexWrites rs) := by
    by_contra hmem
    rw [image_eq_none fun w hw hwa => hmem (mem_visits.mpr ⟨w, hw, by rw [hwa]⟩)] at hb
    cases hb
  rw [image_packed hpacked, if_pos hmem, Option.some.injEq, getD_lastRun_iff hb]

theorem chain_pieces {ps : List Nat} {pieces : List (Piece × Nat)}
    (h : pieces.map (fun p => p.1.addr) = ps.map fun p => ((p * 256 : Nat) : Int)) :
    pieces.IsChain (fun p q => q.1.addr = p.1.addr + 256) ↔ ps.IsChain fun p q => q = p + 1 := by
  rw [← List.isChain_map (f := fun p : Piece × Nat => p.1.addr) (R := fun p q => q = p + 256), h,
    List.isChain_map]
  refine List.IsChain.iff fun p q => ?_
  omega

/-- The data of consecutive pages, put together. -/
theorem data_of_consecutive {ws : List (Nat × UInt8)} {first : Piece × Nat}
    {pieces : List (Piece × Nat)} {blocks : List Bytes} {numblocks start : Nat}
    (h : Packed familyid numblocks (first :: pieces) blocks) (hpieces : hexPieces ws = first :: pieces)
    (hchain : (first :: pieces).IsChain fun p q => q.1.addr = p.1.addr + 256)
    (hfirst : first.1.addr = start) (hconsec : (visits 256 ws).IsChain fun p q => q = p + 1) :
    (first :: pieces).flatMap (fun p => p.1.bytes) =
      (List.range (256 * (visits 256 ws).length)).map fun i => (image ws (start + i)).getD 0 := by
  have hsorted : ws.Pairwise fun v w => v.1 / 256 ≤ w.1 / 256 :=
    visits_sorted_iff.mp (hconsec.imp fun p q h => by omega).pairwise
  have hplaced := h.placed_of_chain hchain
  have hlen : ((first :: pieces).flatMap fun p => p.1.bytes).length = 256 * (visits 256 ws).length := by
    have hcount := congrArg List.length (addrs_hexPieces ws)
    rw [List.length_map, List.length_map, hpieces] at hcount
    rw [List.length_flatMap, ← hcount]
    simp only [Piece.full, List.map_const', List.sum_replicate_nat, Nat.mul_comm]
  generalize hxs : (first :: pieces).flatMap (fun p => p.1.bytes) = xs at *
  refine List.ext_getElem (by simpa using hlen) fun i hi _ => ?_
  have himage := image_packed (hpieces ▸ h) (start + i)
  rw [← hplaced, hfirst, Int.toNat_natCast, image_placed, if_pos (Nat.le_add_right _ _),
    Nat.add_sub_cancel_left, List.getElem?_eq_getElem hi, image_lastRun_of_sorted hsorted] at himage
  split at himage
  · simpa using himage
  · cases himage

theorem hex_contents_two : ∃ r,
    convertFromHexToUf2 7 (hexText false [.data 0x1000 [1, 2] (by decide)]) = .ok r ∧
      image (contents r.outbuf) 0x1001 = some 2 ∧ image (contents r.outbuf) 0x1002 = some 0 := by
  have hread := records_text false [.data 0x1000 [1, 2] (by decide)]
  obtain ⟨r, hr⟩ := (@hex_isOk_iff 7 _).mpr ⟨_, hread, by decide, fun _ => by decide⟩
  have himage := (hex_contents hread hr).1
  refine ⟨r, hr, ?_, ?_⟩
  · rw [himage]
    decide
  · rw [himage]
    decide

/-- **Converted further to a binary**, the file has to visit its pages one after the other,
without a gap; the binary starts at the first page and is what the HEX file says, filled up
with zeros. -/
theorem hex_to_bin {asked base start : Int} {outbuf : Bytes} {rs : List Record}
    {w : Nat × UInt8} {ws : List (Nat × UInt8)}
    (hread : readRecords (buf.splitOn .lf) = .ok rs) (hws : hexWrites rs = w :: ws)
    (hr : convertFromHexToUf2 familyid buf = .ok r) :
    (∃ info, convertFromUf2 asked base r.outbuf = .ok ⟨outbuf, some start, info⟩) ↔
      (visits 256 (w :: ws)).IsChain (fun p q => q = p + 1) ∧
        if asked = 0 ∨ asked = familyid then
          outbuf = (List.range (256 * (visits 256 (w :: ws)).length)).map (fun i =>
              (image (w :: ws) (w.1 / 256 * 256 + i)).getD 0) ∧
            start = (w.1 / 256 * 256 : Nat)
        else outbuf = [] ∧ start = base := by
  obtain ⟨rs', blocks, hread', hpacked, rfl⟩ := convertFromHexToUf2_iff.mp hr
  rw [hread] at hread'
  cases hread'
  rw [hws] at hpacked
  have haddrs := addrs_hexPieces (w :: ws)
  obtain ⟨first, pieces, hpieces, hfirst⟩ := hexPieces_cons w ws
  rw [hpieces] at hpacked haddrs
  have hchain := chain_pieces haddrs
  rw [convertFromUf2_packed_iff hpacked, hchain, hfirst]
  refine and_congr_right fun hconsec => ?_
  split
  · rw [data_of_consecutive hpacked hpieces (hchain.mpr hconsec) hfirst hconsec]
  · exact Iff.rfl

/-- There are not too many pages of words. -/
theorem length_visits_le {ws : List (Nat × UInt8)} (h : ∀ w ∈ ws, w.1 < 2 ^ 32)
    (hsorted : ws.Pairwise fun v w => v.1 / 256 ≤ w.1 / 256) :
    (visits 256 ws).length ≤ 2 ^ 24 := by
  have hnodup : (visits 256 ws).Nodup :=
    (visits_sorted_iff.mpr hsorted).imp fun hlt => Nat.ne_of_lt hlt
  have hsub : visits 256 ws ⊆ List.range (2 ^ 24) := by
    intro p hp
    obtain ⟨w, hw, rfl⟩ := mem_visits.mp hp
    have hlt := h w hw
    rw [List.mem_range]
    omega
  have hle := (List.subperm_of_subset hnodup hsub).length_le
  rwa [List.length_range] at hle

/-- **A well-formed HEX file is flashed as it says**, if its data goes through the pages in
order: in memory are its bytes, and zeros around them up to the ends of their pages. -/
theorem hex_file (crlf : Bool) (rs : List HexRecord) (hfam : IsWord familyid)
    (hword : ∀ w ∈ hexWrites (rs.map HexRecord.meaning), w.1 < 2 ^ 32)
    (hsorted : (hexWrites (rs.map HexRecord.meaning)).Pairwise fun v w => v.1 / 256 ≤ w.1 / 256) :
    ∃ r, convertFromHexToUf2 familyid (hexText crlf rs) = .ok r ∧
      ∀ a, image (contents r.outbuf) a =
        if ∃ w ∈ hexWrites (rs.map HexRecord.meaning), w.1 / 256 = a / 256 then
          some ((image (hexWrites (rs.map HexRecord.meaning)) a).getD 0) else none := by
  have hread := records_text crlf rs
  have hlen := length_visits_le hword hsorted
  obtain ⟨r, hr⟩ := hex_isOk_iff.mpr ⟨_, hread, hword, fun _ => ⟨hfam, by omega⟩⟩
  obtain ⟨rs', blocks, hread', hpacked, rfl⟩ := convertFromHexToUf2_iff.mp hr
  rw [hread] at hread'
  cases hread'
  refine ⟨_, hr, fun a => ?_⟩
  simp only [image_packed hpacked, image_lastRun_of_sorted hsorted, mem_visits]

theorem hex_file_two : ∃ r,
    convertFromHexToUf2 7 (hexText true [.linear 1, .data 0x1000 [1, 2] (by decide)]) = .ok r ∧
      image (contents r.outbuf) 0x11001 = some 2 := by
  obtain ⟨r, hr, himage⟩ := @hex_file 7 true [.linear 1, .data 0x1000 [1, 2] (by decide)]
    (by decide) (by decide) (by decide)
  refine ⟨r, hr, ?_⟩
  rw [himage]
  decide

end

end ThreadSwitch.Uf2
