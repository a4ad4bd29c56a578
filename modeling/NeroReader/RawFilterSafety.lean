import NeroReader.RawFilter

/-!
What the raw filters let through, against the commands themselves: the read-only commands of Type 2
and Type 5 tags with their layouts on the air, the pages or blocks each one reads, and the tag that
may be asked.
-/

namespace NeroReader.Storage

/-! ### The commands -/

inductive Type2Command where
  | read (page : Byte)
  | fastRead (first last : Byte)
  | getVersion
  | readSig (addr : Byte)
  deriving DecidableEq, Repr

namespace Type2Command

def encode : Type2Command → Frame
  | .read page => [0x30, page]
  | .fastRead first last => [0x3A, first, last]
  | .getVersion => [0x60]
  | .readSig addr => [0x3C, addr]

/-- The pages a command reads: READ answers four pages, FAST_READ first through last. -/
def pages : Type2Command → Set Nat
  | .read page => {p | page.toNat ≤ p ∧ p ≤ page.toNat + 3}
  | .fastRead first last => {p | first.toNat ≤ p ∧ p ≤ last.toNat}
  | .getVersion => ∅
  | .readSig _ => ∅

/-- Every page the command reads lies between the container and the end of the data area of a tag
that grants read access. -/
structure ReadOnly (tag : Tag) (c : Type2Command) : Prop where
  kind : tag.kind = .type2
  forward : ∀ first last, c = .fastRead first last → first.toNat ≤ last.toNat
  pages : ∀ p ∈ c.pages, ∃ type2, tag.type2 = some type2 ∧ type2.ccValid = true ∧
    type2.readAccessOpen = true ∧ p ∈ type2.pagesToEnd

end Type2Command

/-- The block commands, with the bytes of their block fields. A multiple form counts the blocks
behind the first. -/
inductive BlockCommand where
  | readSingle (block : Byte)
  | readMultiple (first more : Byte)
  | multipleBlockSecurityStatus (first more : Byte)
  | extReadSingle (blockLo blockHi : Byte)
  | extReadMultiple (firstLo firstHi moreLo moreHi : Byte)
  | extMultipleBlockSecurityStatus (firstLo firstHi moreLo moreHi : Byte)
  deriving DecidableEq, Repr

namespace BlockCommand

def opcode : BlockCommand → Byte
  | .readSingle _ => 0x20
  | .readMultiple _ _ => 0x23
  | .multipleBlockSecurityStatus _ _ => 0x2C
  | .extReadSingle _ _ => 0x30
  | .extReadMultiple _ _ _ _ => 0x33
  | .extMultipleBlockSecurityStatus _ _ _ _ => 0x3C

def fields : BlockCommand → Frame
  | .readSingle block => [block]
  | .readMultiple first more => [first, more]
  | .multipleBlockSecurityStatus first more => [first, more]
  | .extReadSingle blockLo blockHi => [blockLo, blockHi]
  | .extReadMultiple firstLo firstHi moreLo moreHi => [firstLo, firstHi, moreLo, moreHi]
  | .extMultipleBlockSecurityStatus firstLo firstHi moreLo moreHi => [firstLo, firstHi, moreLo, moreHi]

theorem opcode_ne_inventory (c : BlockCommand) : c.opcode ≠ rawT5Inventory := by
  cases c <;> simp only [opcode] <;> decide

def first : BlockCommand → Nat
  | .readSingle block => block.toNat
  | .readMultiple first _ => first.toNat
  | .multipleBlockSecurityStatus first _ => first.toNat
  | .extReadSingle blockLo blockHi => 256 * blockHi.toNat + blockLo.toNat
  | .extReadMultiple firstLo firstHi _ _ => 256 * firstHi.toNat + firstLo.toNat
  | .extMultipleBlockSecurityStatus firstLo firstHi _ _ => 256 * firstHi.toNat + firstLo.toNat

def count : BlockCommand → Nat
  | .readSingle _ => 1
  | .readMultiple _ more => more.toNat + 1
  | .multipleBlockSecurityStatus _ more => more.toNat + 1
  | .extReadSingle _ _ => 1
  | .extReadMultiple _ _ moreLo moreHi => 256 * moreHi.toNat + moreLo.toNat + 1
  | .extMultipleBlockSecurityStatus _ _ moreLo moreHi => 256 * moreHi.toNat + moreLo.toNat + 1

/-- The blocks a command reads, first through last. -/
def blocks (c : BlockCommand) : Set Nat := {b | c.first ≤ b ∧ b < c.first + c.count}

end BlockCommand

/-- The flag that tells an INVENTORY from the other commands, and the meaning it gives bit 5 of the flags. -/
def inventoryFlag : Byte := 0x04
def afiFlag : Byte := 0x10

inductive Type5Command where
  | inventory (afi : Frame) (maskLen : Byte) (mask : Frame)
  | block (c : BlockCommand)
  | getSysInfo
  | extGetSysInfo (param : Byte)
  deriving DecidableEq, Repr

/-- A Type 5 command with its flags byte and, when it is addressed, a UID. -/
structure Type5Request where
  flags : Byte
  uid : Frame
  command : Type5Command
  deriving DecidableEq, Repr

namespace Type5Request

variable (r : Type5Request)

def encode : Frame :=
  match r.command with
  | .inventory afi maskLen mask => r.flags :: 0x01 :: (r.uid ++ (afi ++ maskLen :: mask))
  | .block c => r.flags :: c.opcode :: (r.uid ++ c.fields)
  | .getSysInfo => r.flags :: 0x2B :: r.uid
  | .extGetSysInfo param => r.flags :: 0x3B :: param :: r.uid

/-- INVENTORY has the inventory flag set, under which bit 6 of the flags is no address flag: it carries no UID.
Its flags announce an AFI byte, and its mask has the announced number of bits. -/
def Complete : Prop :=
  match r.command with
  | .inventory afi maskLen mask => r.flags &&& inventoryFlag ≠ 0 ∧ r.uid = [] ∧
      afi.length = (if r.flags &&& afiFlag ≠ 0 then 1 else 0) ∧
      mask.length = (maskLen.toNat + 7) / 8
  | .block _ | .getSysInfo | .extGetSysInfo _ =>
      r.uid.length = if r.flags &&& addressFlag ≠ 0 then 8 else 0

/-- A complete command that reads the active tag within its area. -/
structure ReadOnly (tag : Tag) : Prop where
  kind : tag.kind = .type5
  complete : r.Complete
  addressed : r.uid ≠ [] → r.uid = tag.uidLsb
  blocks : ∀ c, r.command = .block c → ∃ type5, tag.type5 = some type5 ∧ type5.ccValid = true ∧
    type5.readAccessOpen = true ∧ ∀ b ∈ c.blocks, b ∈ type5.blocksToEnd

end Type5Request

/-! ### Reads of the host's bytes -/

namespace Tag

variable {tag : Tag} {tx : Buffer Byte}

theorem uidLsb_length (tag : Tag) : tag.uidLsb.length = 8 := by
  rw [uidLsb, List.length_reverse, Vector.length_toList]

theorem uidLsbMatches_iff (expected : Frame) (off : Nat) :
    (uidLsbMatches tx off expected).value = true ↔ tx.slice off expected.length = expected := by
  induction expected generalizing off with
  | nil => exact iff_of_true rfl rfl
  | cons b rest ih =>
      rw [uidLsbMatches, Looked.bind_value, Buffer.load_value, List.length_cons, Buffer.slice_succ,
        List.cons.injEq]
      split
      · rename_i hne
        exact iff_of_false Bool.false_ne_true fun h => hne h.1
      · rename_i heq
        rw [ih, not_ne_iff.mp heq]
        exact ⟨fun h => ⟨rfl, h⟩, fun h => h.2⟩

theorem within_uidLsbMatches (expected : Frame) (off : Nat) {n : Nat} (h : off + expected.length ≤ n) :
    (uidLsbMatches tx off expected).Within n := by
  induction expected generalizing off with
  | nil => exact Looked.within_pure _ _
  | cons b rest ih =>
      rw [List.length_cons] at h
      refine Looked.within_bind (tx.within_load.mpr (by omega)) ?_
      split
      · exact Looked.within_pure _ _
      · exact ih (off + 1) (by omega)

theorem addressedUidAllowed_spec {off : Nat} (h : (tag.addressedUidAllowed tx off).value = true) :
    off + 8 ≤ tx.len ∧ tx.slice off 8 = tag.uidLsb := by
  rw [addressedUidAllowed] at h
  split at h
  · rename_i hroom
    rw [uidLsbMatches_iff, uidLsb_length] at h
    exact ⟨hroom, h⟩
  · cases h

theorem within_addressedUidAllowed (off : Nat) : (tag.addressedUidAllowed tx off).Within tx.len := by
  rw [addressedUidAllowed]
  split
  · exact within_uidLsbMatches _ _ (by rwa [uidLsb_length])
  · exact Looked.within_pure _ _

theorem within_fixedCommandAllowed (baseLen : Nat) :
    (tag.fixedCommandAllowed tx baseLen).Within tx.len := by
  rw [fixedCommandAllowed]
  split
  · exact Looked.within_pure _ _
  · refine Looked.within_bind (tx.within_loadAt _ _) ?_
    split
    · split
      · exact within_addressedUidAllowed _
      · exact Looked.within_pure _ _
    · exact Looked.within_pure _ _

theorem within_blockPayloadOffset : (tag.blockPayloadOffset tx).Within tx.len := by
  rw [blockPayloadOffset]
  split
  · exact Looked.within_pure _ _
  · refine Looked.within_bind (tx.within_loadAt _ _) ?_
    split
    · exact Looked.within_bind (within_addressedUidAllowed _) (Looked.within_pure _ _)
    · exact Looked.within_pure _ _

theorem within_readCommandAllowed (extended multiple : Bool) :
    (tag.readCommandAllowed tx extended multiple).Within tx.len := by
  refine Looked.within_bind within_blockPayloadOffset ?_
  split
  · exact Looked.within_pure _ _
  · split
    · exact Looked.within_pure _ _
    · rename_i hlen
      exact Looked.within_bind (tx.within_copy (by omega)) (Looked.within_pure _ _)

/-- The Type 5 filter never looks behind the command. -/
theorem within_type5RawTransceiveAllowed : (tag.type5RawTransceiveAllowed tx).Within tx.len := by
  rw [type5RawTransceiveAllowed]
  split
  · exact Looked.within_pure _ _
  refine Looked.within_bind (tx.within_loadAt _ _) ?_
  split
  · exact Looked.within_pure _ _
  split
  · exact within_readCommandAllowed _ _
  split
  · exact within_readCommandAllowed _ _
  split
  · exact within_readCommandAllowed _ _
  split
  · exact within_readCommandAllowed _ _
  split
  · exact within_fixedCommandAllowed _
  split
  · exact within_fixedCommandAllowed _
  · exact Looked.within_pure _ _

/-- A FAST_READ cut off before its last page byte. -/
def CutFastRead (tag : Tag) (tx : Buffer Byte) : Prop :=
  tag.kind = .type2 ∧ 0 < tx.len ∧ tx.len < 3 ∧ tx.mem 0 = rawT2FastRead

/-- The Type 2 filter looks behind the command exactly when it is a FAST_READ cut off. -/
theorem within_type2RawTransceiveAllowed_iff :
    (tag.type2RawTransceiveAllowed tx).Within tx.len ↔ ¬CutFastRead tag tx := by
  rw [type2RawTransceiveAllowed]
  split
  · rename_i hskip
    refine iff_of_true (Looked.within_pure _ _) ?_
    rintro ⟨hkind, hpos, -, -⟩
    rcases hskip with hzero | hother
    · omega
    · exact hother hkind
  rename_i hpass
  obtain ⟨hlen, hkind⟩ := not_or.mp hpass
  rw [not_ne_iff] at hkind
  have hop : (tx.loadAt 0 0).value = tx.mem 0 := Buffer.loadAt_value tx (Nat.pos_of_ne_zero hlen)
  rw [Looked.within_bind_iff, hop]
  split
  · rename_i hread
    refine iff_of_true ⟨tx.within_loadAt _ _, ?_⟩ ?_
    · split
      · exact Looked.within_pure _ _
      · rename_i hlen2
        split
        · exact Looked.within_pure _ _
        · exact Looked.within_bind (tx.within_load.mpr (by omega)) (Looked.within_pure _ _)
    · rintro ⟨-, -, -, hfast⟩
      rw [hread] at hfast
      exact absurd hfast (by decide)
  split
  · rename_i hfast
    by_cases hshort : tx.len < 3
    · refine iff_of_false ?_ (not_not.mpr ⟨hkind, Nat.pos_of_ne_zero hlen, hshort, hfast⟩)
      rintro ⟨-, h⟩
      rw [Looked.within_bind_iff, Looked.within_bind_iff, tx.within_load, tx.within_load] at h
      omega
    · refine iff_of_true ⟨tx.within_loadAt _ _, ?_⟩ fun h => hshort h.2.2.1
      refine Looked.within_bind (tx.within_load.mpr (by omega))
        (Looked.within_bind (tx.within_load.mpr (by omega)) ?_)
      split
      · exact Looked.within_pure _ _
      · split
        · exact Looked.within_pure _ _
        · exact Looked.within_pure _ _
  · rename_i hfast
    refine iff_of_true ⟨tx.within_loadAt _ _, ?_⟩ fun h => hfast h.2.2.2
    split
    · exact Looked.within_pure _ _
    split
    · exact Looked.within_pure _ _
    · exact Looked.within_pure _ _

/-! ### What the Type 2 filter accepts -/

theorem readableType2_spec {type2 : Type2Info} (h : tag.readableType2 = some type2) :
    tag.type2 = some type2 ∧ type2.ccValid = true ∧ type2.readAccessOpen = true := by
  rw [readableType2] at h
  split at h
  · cases h
  · split at h
    · cases h
      exact ⟨‹_›, Bool.and_eq_true_iff.mp ‹_›⟩
    · cases h

/-- The pages of an accepted read. -/
theorem pagesToEnd_of_readSpanOk {type2 : Type2Info} {page len : Word} (h : type2.readSpanOk page len = true)
    {p : Nat} (hfirst : page.toNat ≤ p) (hlast : p ≤ page.toNat + ((len.toNat + 3) / 4 - 1)) :
    p ∈ type2.pagesToEnd := by
  rw [Type2Info.readSpanOk, Bool.and_eq_true] at h
  obtain ⟨-, hlow, harea, hmax⟩ := type2ReadSpanOk_spec h.2
  exact ⟨by omega, by omega, by omega⟩

theorem type2RawTransceiveAllowed_spec (h : (tag.type2RawTransceiveAllowed tx).value = true) :
    ∃ c : Type2Command, tx.contents = c.encode ∧ c.ReadOnly tag := by
  rw [type2RawTransceiveAllowed] at h
  split at h
  · cases h
  rename_i hpass
  obtain ⟨hlen, hkind⟩ := not_or.mp hpass
  rw [not_ne_iff] at hkind
  rw [Looked.bind_value, Buffer.loadAt_value tx (Nat.pos_of_ne_zero hlen)] at h
  split at h
  · rename_i hop
    split at h
    · cases h
    rename_i hlen2
    split at h
    · cases h
    rename_i type2 htype2
    obtain ⟨htag, hvalid, hopen⟩ := readableType2_spec htype2
    refine ⟨.read (tx.mem 1), ?_, hkind, (fun _ _ h => by cases h), ?_⟩
    · rw [Buffer.contents, not_ne_iff.mp hlen2, Buffer.slice_succ, hop]
      rfl
    · rintro p ⟨hfirst, hlast⟩
      refine ⟨type2, htag, hvalid, hopen, pagesToEnd_of_readSpanOk h ?_ ?_⟩
      · rw [byte_zeroExtend_toNat]
        exact hfirst
      · rw [byte_zeroExtend_toNat]
        exact hlast
  split at h
  · rename_i hop
    rw [Looked.bind_value, Looked.bind_value, Buffer.load_value, Buffer.load_value] at h
    split at h
    · cases h
    rename_i hshape
    obtain ⟨hlen3, horder⟩ := not_or.mp hshape
    split at h
    · cases h
    rename_i type2 htype2
    obtain ⟨htag, hvalid, hopen⟩ := readableType2_spec htype2
    have hbytes : ((((tx.mem 2).zeroExtend 16 - (tx.mem 1).zeroExtend 16 + 1) * 4 : Word)).toNat =
        4 * ((tx.mem 2).toNat - (tx.mem 1).toNat + 1) := by
      have h1 := byte_zeroExtend_toNat (tx.mem 1)
      have h2 := byte_zeroExtend_toNat (tx.mem 2)
      have := (tx.mem 2).isLt
      bv_omega
    refine ⟨.fastRead (tx.mem 1) (tx.mem 2), ?_, hkind, ?_, ?_⟩
    · rw [Buffer.contents, not_ne_iff.mp hlen3, Buffer.slice_succ, hop]
      rfl
    · rintro first last ⟨⟩
      exact Nat.le_of_not_lt horder
    · rintro p ⟨hfirst, hlast⟩
      refine ⟨type2, htag, hvalid, hopen, pagesToEnd_of_readSpanOk h ?_ ?_⟩
      · rw [byte_zeroExtend_toNat]
        exact hfirst
      · rw [byte_zeroExtend_toNat, hbytes]
        omega
  split at h
  · rename_i hop
    have hlen1 : tx.len = 1 := of_decide_eq_true h
    refine ⟨.getVersion, ?_, hkind, (fun _ _ h => by cases h), fun p hp => absurd hp (Set.notMem_empty p)⟩
    rw [Buffer.contents, hlen1, Buffer.slice_succ, hop]
    rfl
  split at h
  · rename_i hop
    have hlen2 : tx.len = 2 := of_decide_eq_true h
    refine ⟨.readSig (tx.mem 1), ?_, hkind, (fun _ _ h => by cases h), fun p hp => absurd hp (Set.notMem_empty p)⟩
    rw [Buffer.contents, hlen2, Buffer.slice_succ, hop]
    rfl
  · cases h

/-! ### What the Type 5 filter accepts -/

/-- The active tag may be asked for these blocks. -/
def Readable (tag : Tag) (first count : Nat) : Prop :=
  ∃ type5, tag.type5 = some type5 ∧ type5.ccValid = true ∧ type5.readAccessOpen = true ∧
    ∀ b, first ≤ b → b < first + count → b ∈ type5.blocksToEnd

theorem rawReadSpanAllowed_spec {block count : Word} (hcount : count.toNat ≤ 0xFFFF / 4)
    (h : tag.rawReadSpanAllowed block (count * 4) = true) : Readable tag block.toNat count.toNat := by
  have hbytes : (count * 4 : Word).toNat = 4 * count.toNat := by
    rw [BitVec.toNat_mul, Nat.mul_comm]
    exact Nat.mod_eq_of_lt (by change 4 * _ < 65536; omega)
  rw [rawReadSpanAllowed] at h
  split at h
  · cases h
  rename_i type5 htag
  simp only [Bool.and_eq_true] at h
  obtain ⟨⟨⟨-, hvalid⟩, hopen⟩, hspan⟩ := h
  rw [Type5Info.readSpanOk, Bool.and_eq_true] at hspan
  obtain ⟨hpos, harea, hblocks⟩ := type5ReadSpanOk_spec hspan.2
  rw [hbytes] at hpos harea hblocks
  refine ⟨type5, htag, hvalid, hopen, ?_⟩
  intro b hfirst hlast
  refine ⟨by omega, fun hbc => ?_⟩
  have := hblocks hbc
  omega

theorem blockFieldAllowed_spec {extended multiple : Bool} {field : Frame}
    (h : tag.blockFieldAllowed extended multiple field = true) :
    ∃ block count, blockField extended multiple field = some (block, count) ∧
      Readable tag block.toNat count.toNat := by
  rw [blockFieldAllowed] at h
  split at h
  · cases h
  rename_i block count hfield
  split at h
  · cases h
  split at h
  · cases h
  rename_i hcount
  exact ⟨block, count, hfield, rawReadSpanAllowed_spec (Nat.le_of_not_lt hcount) h⟩

/-- An accepted command is flags, opcode, the active tag's UID where the flags ask for one, and a
block field that may be read. -/
theorem readCommandAllowed_spec {extended multiple : Bool} (hlen : 2 ≤ tx.len)
    (h : (tag.readCommandAllowed tx extended multiple).value = true) :
    ∃ uid field, tx.contents = tx.mem 0 :: tx.mem 1 :: (uid ++ field) ∧
      uid.length = (if tx.mem 0 &&& addressFlag ≠ 0 then 8 else 0) ∧ (uid ≠ [] → uid = tag.uidLsb) ∧
      field.length = blockFieldLen extended multiple ∧
      tag.blockFieldAllowed extended multiple field = true := by
  have hhead : tx.contents = tx.mem 0 :: tx.mem 1 :: tx.slice 2 (tx.len - 2) := tx.contents_split hlen
  rw [readCommandAllowed, Looked.bind_value] at h
  generalize hoff : (tag.blockPayloadOffset tx).value = off at h
  rw [blockPayloadOffset, if_neg (Nat.not_lt_of_le hlen), Looked.bind_value,
    Buffer.loadAt_value tx (Nat.lt_of_lt_of_le Nat.two_pos hlen)] at hoff
  split at hoff
  · rename_i hflag
    rw [Looked.bind_value, Looked.pure_value] at hoff
    split at hoff
    · rename_i hnamed
      subst hoff
      obtain ⟨hroom, huid⟩ := addressedUidAllowed_spec hnamed
      dsimp only at h
      split at h
      · cases h
      rename_i hexact
      refine ⟨tx.slice 2 8, tx.slice 10 (blockFieldLen extended multiple), ?_, ?_, fun _ => huid,
        Buffer.slice_length _ _ _, h⟩
      · rw [hhead, show tx.len - 2 = 8 + blockFieldLen extended multiple by omega, Buffer.slice_append]
      · rw [if_pos hflag, Buffer.slice_length]
    · subst hoff
      cases h
  · rename_i hflag
    rw [Looked.pure_value] at hoff
    subst hoff
    dsimp only at h
    split at h
    · cases h
    rename_i hexact
    refine ⟨[], tx.slice 2 (blockFieldLen extended multiple), ?_, (if_neg hflag).symm,
      fun hne => absurd rfl hne, Buffer.slice_length _ _ _, h⟩
    rw [hhead, show tx.len - 2 = blockFieldLen extended multiple by omega]
    rfl

theorem fixedCommandAllowed_spec {baseLen : Nat} (hbase : 0 < baseLen)
    (h : (tag.fixedCommandAllowed tx baseLen).value = true) :
    ∃ uid, tx.contents = tx.slice 0 baseLen ++ uid ∧
      uid.length = (if tx.mem 0 &&& addressFlag ≠ 0 then 8 else 0) ∧ (uid ≠ [] → uid = tag.uidLsb) := by
  rw [fixedCommandAllowed] at h
  split at h
  · cases h
  rename_i hlen
  rw [Looked.bind_value, Buffer.loadAt_value tx (by omega)] at h
  split at h
  · rename_i hflag
    split at h
    · rename_i hexact
      obtain ⟨-, huid⟩ := addressedUidAllowed_spec h
      refine ⟨tx.slice baseLen 8, ?_, by rw [if_pos hflag, Buffer.slice_length], fun _ => huid⟩
      rw [tx.contents_split (by omega : baseLen ≤ tx.len), hexact, Nat.add_sub_cancel_left]
    · cases h
  · rename_i hflag
    have hexact : tx.len = baseLen := of_decide_eq_true h
    refine ⟨[], ?_, (if_neg hflag).symm, fun hne => absurd rfl hne⟩
    rw [Buffer.contents, hexact, List.append_nil]

/-- A block command with a readable span is a read-only request. -/
theorem readOnly_block (hkind : tag.kind = .type5) {flags : Byte} {uid : Frame} (c : BlockCommand)
    (hcontents : tx.contents = flags :: c.opcode :: (uid ++ c.fields))
    (hlen : uid.length = if flags &&& addressFlag ≠ 0 then 8 else 0) (huid : uid ≠ [] → uid = tag.uidLsb)
    (hread : Readable tag c.first c.count) : ∃ r : Type5Request, tx.contents = r.encode ∧ r.ReadOnly tag := by
  refine ⟨⟨flags, uid, .block c⟩, hcontents, hkind, hlen, huid, ?_⟩
  rintro c' ⟨⟩
  obtain ⟨type5, htag, hvalid, hopen, hblocks⟩ := hread
  exact ⟨type5, htag, hvalid, hopen, fun b hb => hblocks b hb.1 hb.2⟩

/-- The short single form, from its opcode. -/
theorem readOnly_single (hkind : tag.kind = .type5) (hlen : 2 ≤ tx.len) (hop : tx.mem 1 = 0x20)
    (h : (tag.readCommandAllowed tx false false).value = true) :
    ∃ r : Type5Request, tx.contents = r.encode ∧ r.ReadOnly tag := by
  obtain ⟨uid, field, hcontents, huidLen, huid, hfield, hallowed⟩ := readCommandAllowed_spec hlen h
  obtain ⟨b0, rfl⟩ := List.length_eq_one_iff.mp hfield
  obtain ⟨block, count, hspan, hread⟩ := blockFieldAllowed_spec hallowed
  cases hspan
  rw [hop] at hcontents
  refine readOnly_block hkind (.readSingle b0) hcontents huidLen huid ?_
  rw [u8At_cons_zero, if_neg Bool.false_ne_true, byte_zeroExtend_toNat] at hread
  exact hread

/-- The short multiple forms. -/
theorem readOnly_multiple (hkind : tag.kind = .type5) (hlen : 2 ≤ tx.len)
    (h : (tag.readCommandAllowed tx false true).value = true)
    (hop : tx.mem 1 = 0x23 ∨ tx.mem 1 = 0x2C) :
    ∃ r : Type5Request, tx.contents = r.encode ∧ r.ReadOnly tag := by
  obtain ⟨uid, field, hcontents, huidLen, huid, hfield, hallowed⟩ := readCommandAllowed_spec hlen h
  obtain ⟨b0, b1, rfl⟩ := List.length_eq_two.mp hfield
  obtain ⟨block, count, hspan, hread⟩ := blockFieldAllowed_spec hallowed
  cases hspan
  have hcount : ((b1.zeroExtend 16 : Word) + 1).toNat = b1.toNat + 1 := by
    have h1 := byte_zeroExtend_toNat b1
    have := b1.isLt
    bv_omega
  have hspan' : Readable tag b0.toNat (b1.toNat + 1) := by
    rw [u8At_cons_zero, if_neg Bool.false_ne_true, byte_zeroExtend_toNat, u8At_cons_succ, u8At_cons_zero,
      hcount] at hread
    exact hread
  rcases hop with hop | hop
  · rw [hop] at hcontents
    exact readOnly_block hkind (.readMultiple b0 b1) hcontents huidLen huid hspan'
  · rw [hop] at hcontents
    exact readOnly_block hkind (.multipleBlockSecurityStatus b0 b1) hcontents huidLen huid hspan'

/-- The extended single form. -/
theorem readOnly_extSingle (hkind : tag.kind = .type5) (hlen : 2 ≤ tx.len) (hop : tx.mem 1 = 0x30)
    (h : (tag.readCommandAllowed tx true false).value = true) :
    ∃ r : Type5Request, tx.contents = r.encode ∧ r.ReadOnly tag := by
  obtain ⟨uid, field, hcontents, huidLen, huid, hfield, hallowed⟩ := readCommandAllowed_spec hlen h
  obtain ⟨b0, b1, rfl⟩ := List.length_eq_two.mp hfield
  obtain ⟨block, count, hspan, hread⟩ := blockFieldAllowed_spec hallowed
  cases hspan
  rw [hop] at hcontents
  refine readOnly_block hkind (.extReadSingle b0 b1) hcontents huidLen huid ?_
  rw [if_pos rfl, bigEndian_toNat] at hread
  exact hread

/-- The extended multiple forms: the count does not wrap. -/
theorem readOnly_extMultiple (hkind : tag.kind = .type5) (hlen : 2 ≤ tx.len)
    (h : (tag.readCommandAllowed tx true true).value = true)
    (hop : tx.mem 1 = 0x33 ∨ tx.mem 1 = 0x3C) :
    ∃ r : Type5Request, tx.contents = r.encode ∧ r.ReadOnly tag := by
  obtain ⟨uid, field, hcontents, huidLen, huid, hfield, hallowed⟩ := readCommandAllowed_spec hlen h
  obtain ⟨b0, b1, b2, b3, rfl⟩ : ∃ b0 b1 b2 b3, field = [b0, b1, b2, b3] := by
    match field, hfield with
    | [b0, b1, b2, b3], _ => exact ⟨b0, b1, b2, b3, rfl⟩
  obtain ⟨block, count, hspan, hread⟩ := blockFieldAllowed_spec hallowed
  have hblock : block = bigEndian b1 b0 ∧ bigEndian b3 b2 ≠ 0xFFFF ∧ count = bigEndian b3 b2 + 1 := by
    rw [blockField, if_neg (by decide), if_pos rfl, if_pos rfl] at hspan
    dsimp only at hspan
    split at hspan
    · cases hspan
    · rename_i hne
      cases hspan
      exact ⟨rfl, hne, rfl⟩
  obtain ⟨rfl, hne, rfl⟩ := hblock
  have hcount : (bigEndian b3 b2 + 1).toNat = (bigEndian b3 b2).toNat + 1 := by bv_omega
  have hspan' : Readable tag (256 * b1.toNat + b0.toNat) (256 * b3.toNat + b2.toNat + 1) := by
    rw [hcount, bigEndian_toNat, bigEndian_toNat] at hread
    exact hread
  rcases hop with hop | hop
  · rw [hop] at hcontents
    exact readOnly_block hkind (.extReadMultiple b0 b1 b2 b3) hcontents huidLen huid hspan'
  · rw [hop] at hcontents
    exact readOnly_block hkind (.extMultipleBlockSecurityStatus b0 b1 b2 b3) hcontents huidLen huid hspan'

/-! ### INVENTORY -/

/-- The inventory flag is set, and the bytes reach to the end of the mask. -/
def inventoryComplete (f : Frame) : Bool :=
  let off := 2 + (if u8At f 0 &&& afiFlag ≠ 0 then 1 else 0)
  decide (u8At f 0 &&& inventoryFlag ≠ 0 ∧ off < f.length ∧ f.length = off + 1 + ((u8At f off).toNat + 7) / 8)

theorem inventoryComplete_iff (flags op : Byte) (rest : Frame) :
    inventoryComplete (flags :: op :: rest) = true ↔
      flags &&& inventoryFlag ≠ 0 ∧ ∃ afi maskLen mask, rest = afi ++ maskLen :: mask ∧
        afi.length = (if flags &&& afiFlag ≠ 0 then 1 else 0) ∧
        mask.length = (maskLen.toNat + 7) / 8 := by
  rw [inventoryComplete, u8At_cons_zero]
  generalize (if flags &&& afiFlag ≠ 0 then 1 else 0) = n
  have hat : u8At (flags :: op :: rest) (2 + n) = u8At rest n := by
    rw [Nat.add_comm, u8At_cons_succ, u8At_cons_succ]
  rw [decide_eq_true_eq, hat, List.length_cons, List.length_cons]
  refine and_congr_right fun _ => ?_
  constructor
  · rintro ⟨hroom, hlen⟩
    have hn : n < rest.length := by omega
    refine ⟨rest.take n, rest[n], rest.drop (n + 1), ?_, ?_, ?_⟩
    · rw [← List.drop_eq_getElem_cons hn, List.take_append_drop]
    · rw [List.length_take]
      omega
    · have hbyte : u8At rest n = rest[n] := by
        rw [u8At, List.getD_eq_getElem?_getD, List.getElem?_eq_getElem hn, Option.getD_some]
      rw [← hbyte, List.length_drop]
      omega
  · rintro ⟨afi, maskLen, mask, rfl, rfl, hmask⟩
    have hbyte : u8At (afi ++ maskLen :: mask) afi.length = maskLen := by
      rw [u8At_append_right _ _ (Nat.le_refl _), Nat.sub_self, u8At_cons_zero]
    rw [hbyte, List.length_append, List.length_cons]
    omega

/-- The firmware's own INVENTORY, and one with the address flag in place of the inventory flag. -/
example : inventoryComplete [0x26, 0x01, 0x00] = true ∧ inventoryComplete [0x22, 0x01, 0x00] = false := by decide

/-- An INVENTORY without the inventory flag, cut off before the end of its mask, or with bytes behind it. -/
def CutInventory (tag : Tag) (tx : Buffer Byte) : Prop :=
  tag.kind = .type5 ∧ 2 ≤ tx.len ∧ tx.mem 1 = rawT5Inventory ∧ inventoryComplete tx.contents = false

theorem contents_eq_cons (hlen : 2 ≤ tx.len) :
    tx.contents = tx.mem 0 :: tx.mem 1 :: tx.slice 2 (tx.len - 2) := tx.contents_split hlen

/-- **The Type 5 filter.** What it accepts is a read-only request, except for an
INVENTORY cut off or without its flag. -/
theorem type5RawTransceiveAllowed_spec (h : (tag.type5RawTransceiveAllowed tx).value = true)
    (hcut : ¬CutInventory tag tx) : ∃ r : Type5Request, tx.contents = r.encode ∧ r.ReadOnly tag := by
  rw [type5RawTransceiveAllowed] at h
  split at h
  · cases h
  rename_i hpass
  obtain ⟨hshort, hkind⟩ := not_or.mp hpass
  rw [not_ne_iff] at hkind
  have hlen : 2 ≤ tx.len := Nat.le_of_not_lt hshort
  have hcontents := contents_eq_cons hlen
  rw [Looked.bind_value, Buffer.loadAt_value tx hlen] at h
  split at h
  · rename_i hop
    have hcomplete : inventoryComplete tx.contents = true :=
      Bool.eq_true_of_not_eq_false fun hfalse => hcut ⟨hkind, hlen, hop, hfalse⟩
    rw [hcontents, inventoryComplete_iff] at hcomplete
    obtain ⟨hflag, afi, maskLen, mask, hrest, hafi, hmask⟩ := hcomplete
    refine ⟨⟨tx.mem 0, [], .inventory afi maskLen mask⟩, ?_, hkind, ⟨hflag, rfl, hafi, hmask⟩,
      fun hne => absurd rfl hne, nofun⟩
    rw [hcontents, hop, hrest]
    rfl
  split at h
  · exact readOnly_single hkind hlen ‹_› h
  split at h
  · exact readOnly_multiple hkind hlen h ‹_›
  split at h
  · exact readOnly_extSingle hkind hlen ‹_› h
  split at h
  · exact readOnly_extMultiple hkind hlen h ‹_›
  split at h
  · rename_i hop
    obtain ⟨uid, hbytes, huidLen, huid⟩ := fixedCommandAllowed_spec Nat.two_pos h
    refine ⟨⟨tx.mem 0, uid, .getSysInfo⟩, ?_, hkind, huidLen, huid, nofun⟩
    rw [hbytes, Buffer.slice_succ, Buffer.slice_succ, Nat.zero_add, hop]
    rfl
  split at h
  · rename_i hop
    obtain ⟨uid, hbytes, huidLen, huid⟩ := fixedCommandAllowed_spec (Nat.zero_lt_succ 2) h
    refine ⟨⟨tx.mem 0, uid, .extGetSysInfo (tx.mem 2)⟩, ?_, hkind, huidLen, huid, nofun⟩
    rw [hbytes, Buffer.slice_succ, Buffer.slice_succ, Nat.zero_add, hop]
    rfl
  · cases h

/-- Such an INVENTORY is accepted all the same. -/
theorem type5RawTransceiveAllowed_of_cut (h : CutInventory tag tx) :
    (tag.type5RawTransceiveAllowed tx).value = true := by
  obtain ⟨hkind, hlen, hop, -⟩ := h
  have hpass : ¬(tx.len < 2 ∨ tag.kind ≠ .type5) := by
    rintro (hshort | hother)
    · omega
    · exact hother hkind
  rw [type5RawTransceiveAllowed, if_neg hpass, Looked.bind_value, Buffer.loadAt_value tx hlen, if_pos hop]
  exact decide_eq_true hlen

theorem inventoryComplete_of_readOnly {r : Type5Request} (hcontents : tx.contents = r.encode)
    (hr : r.ReadOnly tag) (hlen : 2 ≤ tx.len) (hop : tx.mem 1 = rawT5Inventory) :
    inventoryComplete tx.contents = true := by
  obtain ⟨flags, uid, command⟩ := r
  have hsecond : ∀ first second rest, (Type5Request.mk flags uid command).encode = first :: second :: rest →
      second = rawT5Inventory := by
    intro first second rest heq
    rw [← hcontents, contents_eq_cons hlen] at heq
    cases heq
    exact hop
  cases command with
  | inventory afi maskLen mask =>
      obtain ⟨hflag, huid, hafi, hmask⟩ := hr.complete
      dsimp only at hflag huid hafi
      rw [hcontents, Type5Request.encode, huid]
      exact (inventoryComplete_iff _ _ _).mpr ⟨hflag, afi, maskLen, mask, rfl, hafi, hmask⟩
  | block c => exact absurd (hsecond _ _ _ rfl) c.opcode_ne_inventory
  | getSysInfo => exact absurd (hsecond _ _ _ rfl) (by decide)
  | extGetSysInfo param => exact absurd (hsecond _ _ _ rfl) (by decide)

end Tag

/-! ### Both filters -/

/-- What passes a filter is a complete read-only command within the active tag's area, and no filter
looks behind the host's bytes. -/
structure FilterSafe (tag : Tag) (tx : Buffer Byte) : Prop where
  type2 : (tag.type2RawTransceiveAllowed tx).value = true →
    ∃ c : Type2Command, tx.contents = c.encode ∧ c.ReadOnly tag
  type5 : (tag.type5RawTransceiveAllowed tx).value = true →
    ∃ r : Type5Request, tx.contents = r.encode ∧ r.ReadOnly tag
  within : (tag.type2RawTransceiveAllowed tx).Within tx.len ∧ (tag.type5RawTransceiveAllowed tx).Within tx.len

/-- **The raw filters are safe** except for a FAST_READ cut off before its page bytes, which the Type 2
filter reads past its end, and an INVENTORY without its flag or cut off before its mask, which the Type 5 filter
accepts. -/
theorem filterSafe_iff (tag : Tag) (tx : Buffer Byte) :
    FilterSafe tag tx ↔ ¬tag.CutFastRead tx ∧ ¬tag.CutInventory tx := by
  constructor
  · intro h
    refine ⟨Tag.within_type2RawTransceiveAllowed_iff.mp h.within.1, ?_⟩
    intro hcut
    obtain ⟨r, hcontents, hr⟩ := h.type5 (Tag.type5RawTransceiveAllowed_of_cut hcut)
    obtain ⟨-, hlen, hop, hincomplete⟩ := hcut
    rw [Tag.inventoryComplete_of_readOnly hcontents hr hlen hop] at hincomplete
    cases hincomplete
  · rintro ⟨hfast, hinventory⟩
    exact ⟨Tag.type2RawTransceiveAllowed_spec,
      fun h => Tag.type5RawTransceiveAllowed_spec h hinventory,
      Tag.within_type2RawTransceiveAllowed_iff.mpr hfast, Tag.within_type5RawTransceiveAllowed⟩

/-- A lone FAST_READ opcode on a Type 2 tag: both page bytes are read behind the buffer. -/
theorem fastRead_overread : ¬∀ (tag : Tag) (tx : Buffer Byte), FilterSafe tag tx := by
  intro h
  have hsafe := h ⟨.type2, none, none, Vector.replicate 8 0⟩ ⟨fun _ => rawT2FastRead, 1⟩
  exact absurd (hsafe.within.1 1 (by decide)) (by decide)

end NeroReader.Storage
