import NeroReader.IsoDepCeiling
import NeroReader.Type4Write

/-!
The I-blocks of the firmware's Type 4 writer. Every APDU goes out in one I-block with a CID in its prologue,
whatever frame size the card announced: the SELECT of the NDEF application is too long for the smallest FSC, and
an UPDATE BINARY is cut to MLc alone.
-/

namespace NeroReader.Type4

open IsoDep HostApdu

/-! ### The frames of a dialogue -/

/-- The dialogue with a card: every command with the frames the card answered. -/
abbrev Talk := List (Frame × List Frame)

/-- A card that answers whatever it likes. -/
def AnyCard (s : Talk) (apdu : Frame) (frames : List Frame) (t : Talk) : Prop := t = s ++ [(apdu, frames)]

def writerPcbIBlockBase : Byte := 0x02
def writerPcbCidBit : Byte := 0x08
def writerBlockNumMask : Byte := 0x01
def writerCid : Byte := 0x00

/-- The I-block that `writer_iso_dep_transact` builds for an APDU, up to its CRC. -/
def writerIBlock (blockNum : Byte) (apdu : Frame) : Frame :=
  (writerPcbIBlockBase ||| blockNum &&& writerBlockNumMask ||| writerPcbCidBit) :: writerCid :: apdu

/-- The I-blocks of these commands; the block number toggles behind every response. -/
def writerIBlocksFrom : Byte → Talk → List Frame
  | _, [] => []
  | blockNum, (apdu, frames) :: rest =>
      writerIBlock blockNum apdu ::
        writerIBlocksFrom (if (isoDepResponse frames).isSome then blockNum ^^^ 1 else blockNum) rest

/-- The I-blocks of a dialogue that starts with the RATS. -/
def writerIBlocks (s : Talk) : List Frame := writerIBlocksFrom 0 s.tail

/-- The ATS in a dialogue that starts with the RATS. -/
def atsOf (s : Talk) : Frame := ((s.head?.map Prod.snd).getD []).headD []

/-- Every I-block, with its CRC, keeps to the FSC of the ATS. -/
def IBlocksFit (s : Talk) : Prop := ∀ f ∈ writerIBlocks s, f.length + crcALen ≤ atsFsc (atsOf s)

theorem iBlocksFrom_fit (fsc : Nat) (s : Talk) (blockNum : Byte) :
    (∀ f ∈ writerIBlocksFrom blockNum s, f.length + crcALen ≤ fsc) ↔ ∀ x ∈ s, x.1.length + 4 ≤ fsc := by
  induction s generalizing blockNum with
  | nil => exact iff_of_true (by simp [writerIBlocksFrom]) (by simp)
  | cons x rest ih =>
      rw [writerIBlocksFrom, List.forall_mem_cons, List.forall_mem_cons, ih]
      rfl

theorem iBlocksFit_iff (s : Talk) : IBlocksFit s ↔ ∀ x ∈ s.tail, x.1.length + 4 ≤ atsFsc (atsOf s) :=
  iBlocksFrom_fit _ _ _

/-! ### The condition -/

/-- The capability container in the last READ BINARY of a dialogue. -/
def ccRead (s : Talk) : Option Type4Info :=
  match (s.filter fun x => u8At x.1 1 == insReadBinary).getLast? with
  | none => none
  | some x => type4ApplyCc ((isoDepResponse x.2).getD [])

/-- The card takes frames of 17 bytes, and its MLc leaves no chunk longer than its frames. -/
structure FrameRoom (ndef : Frame) (s : Talk) : Prop where
  select : 17 ≤ atsFsc (atsOf s)
  chunk : ∀ info, ccRead s = some info →
    min ndef.length (min info.mlc updateBinaryDataMax) + 9 ≤ atsFsc (atsOf s)

theorem ccRead_append_of_ne {apdu : Frame} (h : u8At apdu 1 ≠ insReadBinary) (s : Talk) (frames : List Frame) :
    ccRead (s ++ [(apdu, frames)]) = ccRead s := by
  rw [ccRead, List.filter_append]
  simp [h, ccRead]

theorem ccRead_append_of_eq {apdu : Frame} (h : u8At apdu 1 = insReadBinary) (s : Talk) (frames : List Frame) :
    ccRead (s ++ [(apdu, frames)]) = type4ApplyCc ((isoDepResponse frames).getD []) := by
  rw [ccRead, List.filter_append]
  simp [h]

/-- A capability container that is parsed from the front of a response is the one in the whole response. -/
theorem type4ApplyCc_of_take {resp : Frame} {n : Nat} {info : Type4Info} (h : type4ApplyCc (resp.take n) = some info) :
    type4ApplyCc resp = some info := by
  rw [type4ApplyCc, Option.ite_none_left_eq_some, Option.ite_none_left_eq_some] at h
  obtain ⟨hlen, hvalid, hinfo⟩ := h
  rw [List.length_take, ccFileLen] at hlen
  have hbyte : ∀ i, i < 15 → u8At (resp.take n) i = u8At resp i := fun i hi => u8At_take resp (by omega)
  have hword : ∀ i, i < 14 → u16At (resp.take n) i = u16At resp i := by
    intro i hi
    rw [u16At, u16At, hbyte i (by omega), hbyte (i + 1) (by omega)]
  rw [hword 0 (by decide), hword 3 (by decide), hword 5 (by decide), hbyte 7 (by decide), hbyte 8 (by decide),
    List.length_take] at hvalid
  rw [hword 3 (by decide), hword 5 (by decide), hbyte 9 (by decide), hbyte 10 (by decide), hword 11 (by decide),
    hbyte 13 (by decide), hbyte 14 (by decide)] at hinfo
  rw [type4ApplyCc, if_neg (by rw [ccFileLen]; omega), if_neg ?_, ← hinfo]
  simp only [not_or] at hvalid ⊢
  obtain ⟨hmin, hdeclared, hrest⟩ := hvalid
  exact ⟨hmin, by omega, hrest⟩

/-! ### The commands in front of the message -/

/-- No command behind the RATS is longer than a SELECT of the NDEF application. -/
def Inspecting (s : Talk) : Prop := ∀ x ∈ s.tail, x.1.length ≤ 13

/-- The longest SELECT was sent. -/
def Selected (s : Talk) : Prop := ∃ x ∈ s.tail, x.1.length = 13

theorem mem_tail_append {α : Type} {s : List α} {x y : α} (h : y ∈ (s ++ [x]).tail) : y ∈ s.tail ∨ y = x := by
  cases s with
  | nil => cases h
  | cons first rest =>
      rcases List.mem_append.mp h with h | h
      · exact Or.inl h
      · exact Or.inr (List.mem_singleton.mp h)

theorem mem_tail_append_left {α : Type} {s : List α} {y : α} (h : y ∈ s.tail) (x : α) : y ∈ (s ++ [x]).tail := by
  cases s with
  | nil => cases h
  | cons first rest => exact List.mem_append_left _ h

theorem mem_tail_append_right {α : Type} {s : List α} (h : s ≠ []) (x : α) : x ∈ (s ++ [x]).tail := by
  cases s with
  | nil => exact absurd rfl h
  | cons first rest => exact List.mem_append_right _ (List.mem_singleton.mpr rfl)

theorem Inspecting.append {s : Talk} (h : Inspecting s) {apdu : Frame} (hlen : apdu.length ≤ 13)
    (frames : List Frame) : Inspecting (s ++ [(apdu, frames)]) := by
  intro x hx
  rcases mem_tail_append hx with hx | rfl
  · exact h x hx
  · exact hlen

theorem Selected.append {s : Talk} (h : Selected s) (x : Frame × List Frame) : Selected (s ++ [x]) := by
  obtain ⟨y, hy, hlen⟩ := h
  exact ⟨y, mem_tail_append_left hy x, hlen⟩

section Commands

variable {keeps : Talk → Prop} {s : Talk}

/-- One command, whatever the card answers. -/
theorem transact_holds {post : Option Frame → Talk → Prop} {apdu : Frame} (hlen : apdu.length ≤ 257) (hs : keeps s)
    (hnext : ∀ frames, keeps (s ++ [(apdu, frames)]) ∧ post (isoDepResponse frames) (s ++ [(apdu, frames)])) :
    (writerIsoDepTransact apdu).Holds AnyCard keeps post s := by
  rw [writerIsoDepTransact, if_neg (by rw [isoDepApduRespStack, crcALen]; omega)]
  refine ⟨hs, ?_⟩
  rintro frames t rfl
  exact hnext frames

theorem transactOk_holds {post : Bool → Talk → Prop} {apdu : Frame} (hlen : apdu.length ≤ 257) (hs : keeps s)
    (hnext : ∀ ok frames, keeps (s ++ [(apdu, frames)]) ∧ post ok (s ++ [(apdu, frames)])) :
    (writerTransactOk apdu).Holds AnyCard keeps post s := by
  rw [writerTransactOk]
  have hsent : (writerIsoDepTransact apdu).Holds AnyCard keeps (fun _ t => ∃ frames, t = s ++ [(apdu, frames)]) s :=
    transact_holds hlen hs fun frames => ⟨(hnext false frames).1, frames, rfl⟩
  apply Dialogue.holds_bind hsent
  rintro resp t ht ⟨frames, rfl⟩
  exact Dialogue.holds_pure ht (hnext _ frames).2

end Commands

theorem selectAidApdu_length (aid : Frame) (p2 : Byte) (addLe : Bool) :
    (selectAidApdu aid p2 addLe).length = 5 + aid.length + if addLe then 1 else 0 := by
  cases addLe <;> simp [selectAidApdu] <;> omega

/-- Behind a SELECT of 13 bytes every other one of the NDEF application is short enough. -/
theorem selectNdefApp_holds {variants : List (Frame × Byte × Bool)} (haid : ∀ v ∈ variants, v.1.length = 7) {s : Talk}
    (h : Inspecting s ∧ Selected s) :
    (writerSelectNdefApp variants).Holds AnyCard (fun t => Inspecting t ∧ Selected t) (fun _ _ => True) s := by
  induction variants generalizing s with
  | nil => exact Dialogue.holds_pure h trivial
  | cons v variants ih =>
      obtain ⟨aid, p2, addLe⟩ := v
      have hlen : (selectAidApdu aid p2 addLe).length ≤ 13 := by
        rw [selectAidApdu_length, haid (aid, p2, addLe) List.mem_cons_self]
        split <;> omega
      have hsent : (writerTransactOk (selectAidApdu aid p2 addLe)).Holds AnyCard (fun t => Inspecting t ∧ Selected t)
          (fun _ _ => True) s :=
        transactOk_holds (by omega) h fun ok frames => ⟨⟨h.1.append hlen frames, h.2.append _⟩, trivial⟩
      rw [writerSelectNdefApp]
      apply Dialogue.holds_bind hsent
      intro ok t ht _
      split
      · exact Dialogue.holds_pure ht trivial
      · exact ih (fun v hv => haid v (List.mem_cons_of_mem _ hv)) ht

/-- The first SELECT is the longest. -/
theorem selectNdefApp_selected {s : Talk} (hne : s ≠ []) (h : Inspecting s) :
    (writerSelectNdefApp ndefAppSelectVariants).Holds AnyCard Inspecting (fun _ t => Selected t) s := by
  have hlen : (selectAidApdu ndefAppAid p2SelectFirst true).length = 13 := by decide
  have hfirst : (writerTransactOk (selectAidApdu ndefAppAid p2SelectFirst true)).Holds AnyCard Inspecting
      (fun _ t => Selected t) s :=
    transactOk_holds (by omega) h fun ok frames => ⟨h.append (by omega) frames, _, mem_tail_append_right hne _, hlen⟩
  rw [ndefAppSelectVariants, writerSelectNdefApp]
  apply Dialogue.holds_bind hfirst
  intro ok t ht hselected
  split
  · exact Dialogue.holds_pure ht hselected
  · have hrest := @selectNdefApp_holds ndefAppSelectVariants.tail (by decide) t ⟨ht, hselected⟩
    exact hrest.mono (fun _ hu => hu.1) fun _ _ hu _ => hu.2

/-- The limits the writer goes on with are those of the container it read. -/
structure Chosen (max : ChunkMax) (s : Talk) : Prop where
  selected : Selected s
  cc : ∃ info, ccRead s = some info ∧ max.bytes = min info.mlc updateBinaryDataMax

theorem Chosen.append {max : ChunkMax} {s : Talk} (h : Chosen max s) {apdu : Frame} (hne : u8At apdu 1 ≠ insReadBinary)
    (frames : List Frame) : Chosen max (s ++ [(apdu, frames)]) := by
  refine ⟨h.selected.append _, ?_⟩
  rw [ccRead_append_of_ne hne]
  exact h.cc

/-- The response the writer takes is that of the READ BINARY it sent last. -/
theorem readCc_inspects (len : Nat) {s : Talk} (h : Inspecting s ∧ Selected s) :
    (writerReadCc len).Holds AnyCard (fun t => Inspecting t ∧ Selected t)
      (fun r t => ∀ resp, r = some resp → ∀ n info, type4ApplyCc (resp.take n) = some info →
        ccRead t = some info) s := by
  have hlen : (readBinaryApdu 0 len).length = 5 := rfl
  have hsent : (writerIsoDepTransact (readBinaryApdu 0 len)).Holds AnyCard (fun t => Inspecting t ∧ Selected t)
      (fun resp t => ∃ frames, resp = isoDepResponse frames ∧ t = s ++ [(readBinaryApdu 0 len, frames)]) s :=
    transact_holds (by omega) h fun frames => ⟨⟨h.1.append (by omega) frames, h.2.append _⟩, frames, rfl, rfl⟩
  rw [writerReadCc]
  apply Dialogue.holds_bind hsent
  rintro resp t ht ⟨frames, rfl, rfl⟩
  refine Dialogue.holds_pure ht fun resp hresp n info hinfo => ?_
  split at hresp
  · cases hresp
  cases hresp
  rw [ccRead_append_of_eq rfl]
  exact type4ApplyCc_of_take hinfo

theorem writerCc_reads {s : Talk} (h : Inspecting s ∧ Selected s) :
    writerCc.Holds AnyCard (fun t => Inspecting t ∧ Selected t)
      (fun r t => ∀ info, r = some info → ccRead t = some info) s := by
  rw [writerCc]
  apply Dialogue.holds_bind (readCc_inspects ccFileLen h)
  intro r t ht hr
  cases r with
  | none => exact Dialogue.holds_pure ht (by simp)
  | some resp =>
      dsimp only
      split
      · exact Dialogue.holds_pure ht (by simp)
      split
      · apply Dialogue.holds_bind (readCc_inspects _ ht)
        intro r u hu hr
        cases r with
        | none => exact Dialogue.holds_pure hu (by simp)
        | some resp => exact Dialogue.holds_pure hu fun info hinfo => hr resp rfl _ info hinfo
      · exact Dialogue.holds_pure ht fun info hinfo => hr resp rfl _ info hinfo

theorem selectFile_holds (hi lo : Byte) {s : Talk} (h : Inspecting s ∧ Selected s) :
    (writerTransactOk (selectFileApdu hi lo)).Holds AnyCard (fun t => Inspecting t ∧ Selected t)
      (fun _ t => ∃ frames, t = s ++ [(selectFileApdu hi lo, frames)]) s := by
  have hlen : (selectFileApdu hi lo).length = 7 := rfl
  exact transactOk_holds (by omega) h fun ok frames => ⟨⟨h.1.append (by omega) frames, h.2.append _⟩, frames, rfl⟩

/-- **In front of the message** no command is longer than a SELECT, and the chunks that follow are cut to the MLc
that was read. -/
theorem selectNdefFile_chosen (ndef : Frame) :
    (writerSelectNdefFile ndef).Holds AnyCard Inspecting (fun r t => ∀ max, r = some max → Chosen max t) [] := by
  have hnone : ∀ t, Inspecting t → (pure none : Dialogue Frame (List Frame) (Option ChunkMax)).Holds AnyCard Inspecting
      (fun r t => ∀ max, r = some max → Chosen max t) t :=
    fun t ht => Dialogue.holds_pure ht (by simp)
  have hopen : writerIsoDepOpen.Holds AnyCard Inspecting (fun _ t => t ≠ []) [] := by
    refine ⟨by simp [Inspecting], ?_⟩
    rintro frames t rfl
    exact ⟨by simp [Inspecting], by simp⟩
  rw [writerSelectNdefFile]
  apply Dialogue.holds_bind hopen
  intro ok t ht hne
  split
  · exact hnone t ht
  apply Dialogue.holds_bind (selectNdefApp_selected hne ht)
  intro ok t ht hselected
  split
  · exact hnone t ht
  -- from here on the SELECT stays in the dialogue
  suffices hrest : Dialogue.Holds AnyCard (fun t => Inspecting t ∧ Selected t)
      (fun r t => ∀ max, r = some max → Chosen max t) _ t from hrest.mono (fun _ hu => hu.1) fun _ _ _ hpost => hpost
  have hnone : ∀ t, Inspecting t ∧ Selected t →
      (pure none : Dialogue Frame (List Frame) (Option ChunkMax)).Holds AnyCard (fun t => Inspecting t ∧ Selected t)
        (fun r t => ∀ max, r = some max → Chosen max t) t :=
    fun t ht => Dialogue.holds_pure ht (by simp)
  apply Dialogue.holds_bind (selectFile_holds _ _ ⟨ht, hselected⟩)
  intro ok t ht _
  split
  · exact hnone t ht
  apply Dialogue.holds_bind (writerCc_reads ht)
  intro r t ht hr
  cases r with
  | none => exact hnone t ht
  | some info =>
      dsimp only
      split
      · exact hnone t ht
      split
      · exact hnone t ht
      split
      · exact hnone t ht
      split
      · rename_i hmlc
        apply Dialogue.holds_bind (selectFile_holds _ _ ht)
        rintro ok u hu ⟨frames, rfl⟩
        split
        · refine Dialogue.holds_pure hu fun max hmax => ?_
          cases hmax
          have hcc : ccRead (t ++ [(selectFileApdu info.ndefFileId.1 info.ndefFileId.2, frames)]) = ccRead t :=
            ccRead_append_of_ne (by rw [selectFileApdu, u8At_cons_succ, u8At_cons_zero]; decide) t frames
          exact ⟨hu.2, info, hcc.trans (hr info rfl), rfl⟩
        · exact hnone _ hu
      · exact hnone t ht

/-! ### The message -/

/-- The largest UPDATE BINARY of a write. -/
def largestUpdate (ndef : Frame) (max : ChunkMax) : Nat := 5 + min ndef.length max.bytes

/-- Behind the inspection every command is a short one or no longer than the largest UPDATE BINARY. -/
structure Updating (ndef : Frame) (max : ChunkMax) (s : Talk) : Prop where
  lengths : ∀ x ∈ s.tail, x.1.length ≤ 13 ∨ x.1.length ≤ largestUpdate ndef max
  chosen : Chosen max s

/-- The largest UPDATE BINARY was sent. -/
def UpdatedOnce (ndef : Frame) (max : ChunkMax) (s : Talk) : Prop := ∃ x ∈ s.tail, x.1.length = largestUpdate ndef max

theorem Updating.append {ndef : Frame} {max : ChunkMax} {s : Talk} (h : Updating ndef max s) {apdu : Frame}
    (hne : u8At apdu 1 ≠ insReadBinary) (hlen : apdu.length ≤ 13 ∨ apdu.length ≤ largestUpdate ndef max)
    (frames : List Frame) : Updating ndef max (s ++ [(apdu, frames)]) := by
  refine ⟨?_, h.chosen.append hne frames⟩
  intro x hx
  rcases mem_tail_append hx with hx | rfl
  · exact h.lengths x hx
  · exact hlen

theorem UpdatedOnce.append {ndef : Frame} {max : ChunkMax} {s : Talk} (h : UpdatedOnce ndef max s)
    (x : Frame × List Frame) : UpdatedOnce ndef max (s ++ [x]) := by
  obtain ⟨y, hy, hlen⟩ := h
  exact ⟨y, mem_tail_append_left hy x, hlen⟩

/-- The frames fit where the card has room for them. -/
theorem Updating.fit {ndef : Frame} {max : ChunkMax} {s : Talk} (h : Updating ndef max s) (hroom : FrameRoom ndef s) :
    IBlocksFit s := by
  obtain ⟨info, hcc, hmax⟩ := h.chosen.cc
  have hselect := hroom.select
  have hchunk := hroom.chunk info hcc
  rw [← hmax] at hchunk
  rw [iBlocksFit_iff]
  intro x hx
  rcases h.lengths x hx with hlen | hlen
  · omega
  · rw [largestUpdate] at hlen
    omega

/-- **Frames that fit show the room there is.** -/
theorem Updating.room {ndef : Frame} {max : ChunkMax} {s : Talk} (h : Updating ndef max s)
    (honce : UpdatedOnce ndef max s) (hfit : IBlocksFit s) : FrameRoom ndef s := by
  rw [iBlocksFit_iff] at hfit
  obtain ⟨info, hcc, hmax⟩ := h.chosen.cc
  obtain ⟨x, hx, hselect⟩ := h.chosen.selected
  obtain ⟨y, hy, hupdate⟩ := honce
  have hx := hfit x hx
  have hy := hfit y hy
  refine ⟨by omega, ?_⟩
  intro info' hcc'
  obtain rfl : info = info' := Option.some.inj (hcc.symm.trans hcc')
  rw [largestUpdate] at hupdate
  rw [← hmax]
  omega

theorem updateBinaryApdu_length (offset : Nat) (data : Frame) :
    (updateBinaryApdu offset data).length = 5 + data.length := by
  rw [updateBinaryApdu, List.length_append]
  rfl

theorem update_ne_read (offset : Nat) (data : Frame) : u8At (updateBinaryApdu offset data) 1 ≠ insReadBinary := by
  rw [updateBinaryApdu, List.cons_append, List.cons_append, u8At_cons_succ, u8At_cons_zero]
  decide

section Chunks

variable {ndef : Frame} {max : ChunkMax} {s : Talk}

theorem update_holds {data : Frame} (hdata : data.length ≤ 8 ∨ data.length ≤ min ndef.length max.bytes)
    (h : Updating ndef max s) (offset : Nat) :
    (writerUpdate offset data).Holds AnyCard (Updating ndef max)
      (fun _ t => ∃ frames, t = s ++ [(updateBinaryApdu offset data, frames)]) s := by
  have hmax := max.le
  rw [updateBinaryDataMax] at hmax
  have hlen := updateBinaryApdu_length offset data
  rw [writerUpdate]
  refine transactOk_holds (by omega) h fun ok frames => ⟨h.append (update_ne_read offset data) ?_ frames, frames, rfl⟩
  rw [largestUpdate]
  omega

/-- **The write loop** sends no command that is longer than its first one. -/
theorem writeChunks_updating (message : Message) (hmessage : message.bytes = ndef)
    {finish : Dialogue Frame (List Frame) Bool}
    (hfinish : ∀ t, Updating ndef max t → UpdatedOnce ndef max t →
      finish.Holds AnyCard (Updating ndef max) (fun _ u => UpdatedOnce ndef max u) t)
    {k : Nat} (honce : k = 0 ∧ 0 < ndef.length ∨ UpdatedOnce ndef max s) (h : Updating ndef max s) :
    (writeChunks 8 (Nat.le_refl 8) writerUpdate message max finish k).Holds AnyCard (Updating ndef max)
      (fun ok u => ok = true → UpdatedOnce ndef max u) s := by
  induction hleft : ndef.length - k using Nat.strong_induction_on generalizing k s with
  | _ left ih =>
      have hlen := message.length_le
      have hmaxpos := max.pos
      rw [writeChunks]
      split
      · rename_i hlt
        have hchunk := chunkLen_eq (Nat.le_refl 8) max (show message.bytes.length - k ≤ 65534 by omega)
        rw [hchunk, hmessage] at *
        have hnext : u16 (k + min (ndef.length - k) max.bytes) = k + min (ndef.length - k) max.bytes :=
          Nat.mod_eq_of_lt (by omega)
        have hdata : ((ndef.drop k).take (min (ndef.length - k) max.bytes)).length = min
            (ndef.length - k) max.bytes := by
          rw [List.length_take, List.length_drop]
          omega
        rw [hnext]
        apply Dialogue.holds_bind (update_holds (by omega) h _)
        rintro ok t ht ⟨frames, rfl⟩
        split
        · refine ih _ (by omega) (Or.inr ?_) ht rfl
          rcases honce with ⟨rfl, hpos⟩ | honce
          · -- the first chunk is as long as a chunk can be
            obtain ⟨x, hx, -⟩ := h.chosen.selected
            have hne : s ≠ [] := by
              rintro rfl
              cases hx
            refine ⟨_, mem_tail_append_right hne _, ?_⟩
            rw [updateBinaryApdu_length, hdata, largestUpdate, Nat.sub_zero]
          · exact honce.append _
        · exact Dialogue.holds_pure ht (by simp)
      · rename_i hge
        rw [hmessage] at hge
        have honce : UpdatedOnce ndef max s := by
          rcases honce with ⟨rfl, hpos⟩ | honce
          · exact absurd hpos hge
          · exact honce
        exact (hfinish s h honce).mono (fun _ ht => ht) fun _ _ _ hpost _ => hpost

end Chunks

/-- **The writer's I-blocks and the FSC.** At every moment of a write, whatever the card answers, every I-block
keeps to the FSC of the ATS if the card has room for the longest SELECT and for the chunks its MLc allows; behind a
write that succeeded they all do only if it has. -/
theorem writer_iBlocks_fit (ndef : Frame) (hcap : ndef.length ≤ writerNdefMaxBytes) :
    (writerTagWriteType4Impl ndef hcap).Holds AnyCard (fun s => FrameRoom ndef s → IBlocksFit s)
      (fun ok s => ok = true → (IBlocksFit s ↔ FrameRoom ndef s)) [] := by
  have hinspecting : ∀ s, Inspecting s → FrameRoom ndef s → IBlocksFit s := by
    intro s hs hroom
    rw [iBlocksFit_iff]
    intro x hx
    have hlen := hs x hx
    have hselect := hroom.select
    omega
  rw [writerTagWriteType4Impl]
  split
  · exact Dialogue.holds_pure (hinspecting [] (by simp [Inspecting])) (by simp)
  rename_i hne
  have hselect := (selectNdefFile_chosen ndef).mono hinspecting fun _ t ht hpost => And.intro ht hpost
  apply Dialogue.holds_bind hselect
  rintro r t - ⟨ht, hr⟩
  cases r with
  | none => exact Dialogue.holds_pure (hinspecting t ht) (by simp)
  | some max =>
      have hupdating : Updating ndef max t := ⟨fun x hx => Or.inl (ht x hx), hr max rfl⟩
      suffices hrest : Dialogue.Holds AnyCard (Updating ndef max)
        (fun ok u => ok = true → UpdatedOnce ndef max u) _ t from
        hrest.mono (fun _ hu hroom => hu.fit hroom) fun _ _ hu hpost hok =>
          ⟨hu.room (hpost hok), fun hroom => hu.fit hroom⟩
      have hclear := update_holds (Or.inl (show (nlenBytes 0).length ≤ 8 by decide)) hupdating
      apply Dialogue.holds_bind (hclear 0)
      rintro ok u hu ⟨frames, rfl⟩
      split
      · refine writeChunks_updating ⟨ndef, Nat.le_trans hcap (by decide)⟩ rfl ?_
          (Or.inl ⟨rfl, Nat.pos_of_ne_zero hne⟩) hu
        intro t ht honce
        have hset := update_holds (Or.inl (show (nlenBytes ndef.length).length ≤ 8 from Nat.le_of_ble_eq_true rfl)) ht
        refine (hset 0).mono (fun _ hu => hu) ?_
        rintro ok u hu ⟨frames, rfl⟩
        exact honce.append _
      · exact Dialogue.holds_pure hu (by simp)

theorem writer_iBlocks_fit_short :
    (writerTagWriteType4Impl [0xD0, 0x00, 0x00] (by decide)).Holds AnyCard
      (fun s => FrameRoom [0xD0, 0x00, 0x00] s → IBlocksFit s)
      (fun ok s => ok = true → (IBlocksFit s ↔ FrameRoom [0xD0, 0x00, 0x00] s)) [] :=
  writer_iBlocks_fit [0xD0, 0x00, 0x00] (by decide)

/-- A card with frames of 16 bytes: its ATS is answered by a SELECT in a frame of 17. -/
theorem writer_iBlocks_exceed :
    ∃ s left, Dialogue.Reaches AnyCard (writerTagWriteType4Impl [0xD0, 0x00, 0x00] (by decide)) [] left s ∧
      atsOf s = [0x02, 0x00] ∧ ¬IBlocksFit s := by
  refine ⟨_, _, .ask [[0x02, 0x00]] rfl (.ask [] rfl (.here _ _)), rfl, ?_⟩
  intro hfit
  have hselect := hfit _ List.mem_cons_self
  exact absurd hselect (by decide)

end NeroReader.Type4
