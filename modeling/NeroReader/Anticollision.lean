import NeroReader.Dialogue
import NeroReader.NdefTlv

/-!
The ISO 14443-A activation of the front end. A wake-up is sent once more when it went unanswered; then one cascade
level after the other is asked for its part of the UID, checked against its check byte and selected, as long as the
card's SAK announces a further level. The parts make up a UID of four, seven or ten bytes. A card is given by its UID
and its SAKs, and answers as its own state allows.
-/

namespace NeroReader.Anticollision

open Ndef

/-! ### The front end -/

def selCl1 : Byte := 0x93
def selCl2 : Byte := 0x95
def selCl3 : Byte := 0x97
def anticollCode : Byte := 0x20
def selectCode : Byte := 0x70
def sakCascadeBit : Byte := 0x04
def cascadeTag : Byte := 0x88
def selRespLen : Nat := 4
def bccIndex : Nat := 4
def sakMinRxLen : Nat := 5
def atqaLen : Nat := 2
def cascadePartialUidLen : Nat := 3
def uidLenSingle : Nat := 4
def uidLenDouble : Nat := 7
def uidLenTriple : Nat := 10

/-- What the front end puts into the field. -/
inductive Request where
  | wupa
  | reqa
  | transceive (tx : Frame) (withCrc anticol : Bool)
  deriving DecidableEq, Repr

/-- A program of the front end. An empty answer is a transceive that failed. -/
abbrev Radio (α : Type) := Dialogue Request Frame α

def bcc (part : Frame) : Byte := u8At part 0 ^^^ u8At part 1 ^^^ u8At part 2 ^^^ u8At part 3

/-- `st25_iso14443a_anticollision_select`: the level's part of the UID, and the SAK. -/
def anticollisionSelect (selCmd : Byte) : Radio (Option (Frame × Byte)) :=
  .ask (.transceive [selCmd, anticollCode] false true) fun rx =>
    if rx.length < sakMinRxLen then pure none
    else if bcc rx ≠ u8At rx bccIndex then pure none
    else
      .ask (.transceive ([selCmd, selectCode] ++ rx.take sakMinRxLen) true false) fun sak =>
        if sak.length < 1 then pure none else pure (some (rx.take selRespLen, u8At sak 0))

def cascades (sak : Byte) : Bool := sak &&& sakCascadeBit != 0

/-- `nero_nfc_copy_from`. -/
def copyFrom (dst : Frame) (dstOff : Nat) (src : Frame) (srcOff len : Nat) : Option Frame :=
  if spanOk srcOff len src.length then copyBytes dst dstOff ((src.drop srcOff).take len) else none

/-- `st25_iso14443a_assemble_cascaded_uid`: the buffer, the SAK and the length of the UID. A level that was not
asked for is `none`. -/
def assembleCascadedUid (levels : Nat) (cl1 : Frame × Byte) (cl2 cl3 : Option (Frame × Byte)) (uidOut : Frame) :
    Option (Frame × Byte × Nat) :=
  if levels = 1 then
    if cascades cl1.2 || uidOut.length < uidLenSingle then none
    else (copyFrom uidOut 0 cl1.1 0 uidLenSingle).map fun uid => (uid, cl1.2, uidLenSingle)
  else if !cascades cl1.2 || u8At cl1.1 0 != cascadeTag then none
  else cl2.bind fun cl2 =>
    if levels = 2 then
      if cascades cl2.2 || uidOut.length < uidLenDouble then none
      else
        (copyFrom uidOut 0 cl1.1 1 cascadePartialUidLen).bind fun uid =>
          (copyFrom uid cascadePartialUidLen cl2.1 0 selRespLen).map fun uid => (uid, cl2.2, uidLenDouble)
    else if levels = 3 then
      if !cascades cl2.2 || u8At cl2.1 0 != cascadeTag then none
      else cl3.bind fun cl3 =>
        if cascades cl3.2 || uidOut.length < uidLenTriple then none
        else
          (copyFrom uidOut 0 cl1.1 1 cascadePartialUidLen).bind fun uid =>
            (copyFrom uid cascadePartialUidLen cl2.1 1 cascadePartialUidLen).bind fun uid =>
              (copyFrom uid (2 * cascadePartialUidLen) cl3.1 0 selRespLen).map fun uid => (uid, cl3.2, uidLenTriple)
    else none

/-- What an activation left: its verdict, the UID buffer, the UID's length and the SAK. -/
structure Activation where
  ok : Bool
  uidOut : Frame
  uidLen : Nat
  sak : Byte
  deriving DecidableEq, Repr

/-- The activation that failed, over a buffer cleared at its front. -/
def failed (uidOut : Frame) : Activation := ⟨false, uidOut, 0, 0⟩

def assembled (uidOut : Frame) : Option (Frame × Byte × Nat) → Activation
  | none => failed uidOut
  | some (uid, sak, len) => ⟨true, uid, len, sak⟩

/-- The short frame, and whether an ATQA came. -/
def sendShortFrame (request : Request) : Radio Bool := .ask request fun atqa => pure (decide (atqaLen ≤ atqa.length))

/-- The wake-up, and the second try. -/
def wakeUp (retryWithReqa : Bool) : Radio Bool :=
  sendShortFrame .wupa >>= fun awake =>
    if awake then pure true else sendShortFrame (if retryWithReqa then .reqa else .wupa)

/-- The cascade of a card that is awake. -/
def selectLevels (uidOut : Frame) : Radio Activation :=
  anticollisionSelect selCl1 >>= fun cl1 =>
    match cl1 with
    | none => pure (failed uidOut)
    | some cl1 =>
        if cascades cl1.2 then
          anticollisionSelect selCl2 >>= fun cl2 =>
            match cl2 with
            | none => pure (failed uidOut)
            | some cl2 =>
                if cascades cl2.2 then
                  anticollisionSelect selCl3 >>= fun cl3 =>
                    match cl3 with
                    | none => pure (failed uidOut)
                    | some cl3 => pure (assembled uidOut (assembleCascadedUid 3 cl1 (some cl2) (some cl3) uidOut))
                else pure (assembled uidOut (assembleCascadedUid 2 cl1 (some cl2) none uidOut))
        else pure (assembled uidOut (assembleCascadedUid 1 cl1 none none uidOut))

def clearedUid (uidOut : Frame) : Frame :=
  if uidLenDouble ≤ uidOut.length then storeAt uidOut 0 (List.replicate uidLenDouble 0) else uidOut

/-- `st25_iso14443a_activate_tag`, into a buffer whose length is its capacity. -/
def activateTag (retryWithReqa : Bool) (uidOut : Frame) : Radio Activation :=
  if uidOut.length < uidLenDouble then pure (failed (clearedUid uidOut))
  else
    wakeUp retryWithReqa >>= fun awake =>
      if awake then selectLevels (clearedUid uidOut) else pure (failed (clearedUid uidOut))

/-! ### The levels of a UID -/

/-- The levels, each a part and a SAK, in which a card shows this UID and this SAK. -/
inductive Shows : List (Frame × Byte) → Frame → Byte → Prop where
  | last {part : Frame} {sak : Byte} (hpart : part.length = selRespLen) (hsak : cascades sak = false) :
      Shows [(part, sak)] part sak
  | level {part uid : Frame} {announce sak : Byte} {levels : List (Frame × Byte)}
      (hpart : part.length = cascadePartialUidLen) (hannounce : cascades announce = true)
      (rest : Shows levels uid sak) :
      Shows ((cascadeTag :: part, announce) :: levels) (part ++ uid) sak

example : Shows [([0x88, 0x04, 0xA1, 0xB2], 0x04), ([0xC3, 0xD4, 0xE5, 0x80], 0x00)]
    [0x04, 0xA1, 0xB2, 0xC3, 0xD4, 0xE5, 0x80] 0x00 := .level rfl rfl (.last rfl rfl)

theorem Shows.part_length {levels : List (Frame × Byte)} {uid : Frame} {sak : Byte} (h : Shows levels uid sak) :
    ∀ level ∈ levels, level.1.length = selRespLen := by
  induction h with
  | last hpart _ =>
      intro level hlevel
      rw [List.mem_singleton.mp hlevel]
      exact hpart
  | level hpart _ _ ih =>
      intro level hlevel
      rcases List.mem_cons.mp hlevel with rfl | hlevel
      · exact congrArg Nat.succ hpart
      · exact ih level hlevel

/-! ### Assembling -/

theorem copyFrom_eq_some {dst src : Frame} {dstOff srcOff len : Nat} (hsrc : srcOff + len ≤ src.length)
    (hdst : dstOff + len ≤ dst.length) :
    copyFrom dst dstOff src srcOff len = some (storeAt dst dstOff ((src.drop srcOff).take len)) := by
  have hlen : ((src.drop srcOff).take len).length = len := by
    rw [List.length_take, List.length_drop]
    omega
  rw [copyFrom, spanOk, decide_eq_true hsrc, if_pos rfl, copyBytes, hlen, spanOk, decide_eq_true hdst, if_pos rfl]

@[simp] theorem storeAt_length {dst : Frame} {off : Nat} {src : Frame} (h : off + src.length ≤ dst.length) :
    (storeAt dst off src).length = dst.length := by
  rw [storeAt, List.length_append, List.length_append, List.length_take, List.length_drop]
  omega

/-- Two stores, one behind the other. -/
theorem storeAt_storeAt (dst part rest : Frame) :
    storeAt (storeAt dst 0 part) part.length rest = storeAt dst 0 (part ++ rest) := by
  have hfront : storeAt dst 0 part = part ++ dst.drop part.length := by
    rw [storeAt, List.take_zero, List.nil_append, Nat.zero_add]
  rw [hfront, storeAt, storeAt, List.take_left, List.drop_append, List.drop_eq_nil_of_le (Nat.le_add_right _ _),
    Nat.add_sub_cancel_left, List.drop_drop, List.take_zero, List.nil_append, List.nil_append, Nat.zero_add,
    List.length_append]

theorem copyFrom_part {dst part : Frame} {off len : Nat} (hpart : part.length = len) (hdst : off + len ≤ dst.length) :
    copyFrom dst off part 0 len = some (storeAt dst off part) := by
  rw [copyFrom_eq_some (by omega) hdst, List.drop_zero, ← hpart, List.take_length]

theorem copyFrom_behind_tag {dst part : Frame} {tag : Byte} {off len : Nat} (hpart : part.length = len)
    (hdst : off + len ≤ dst.length) : copyFrom dst off (tag :: part) 1 len = some (storeAt dst off part) := by
  rw [copyFrom_eq_some (by rw [List.length_cons]; omega) hdst, List.drop_succ_cons, List.drop_zero, ← hpart,
    List.take_length]

theorem assemble_single {part : Frame} {sak : Byte} (hpart : part.length = selRespLen) (hsak : cascades sak = false)
    (uidOut : Frame) : assembleCascadedUid 1 (part, sak) none none uidOut =
      if uidOut.length < uidLenSingle then none else some (storeAt uidOut 0 part, sak, uidLenSingle) := by
  by_cases hshort : uidOut.length < uidLenSingle
  · simp [assembleCascadedUid, hshort]
  have hcopy : copyFrom uidOut 0 part 0 uidLenSingle = some (storeAt uidOut 0 part) :=
    copyFrom_part hpart (by omega)
  simp [assembleCascadedUid, hsak, hshort, hcopy]

theorem assemble_double {part last : Frame} {announce sak : Byte} (hpart : part.length = cascadePartialUidLen)
    (hlast : last.length = selRespLen) (hannounce : cascades announce = true) (hsak : cascades sak = false)
    (uidOut : Frame) : assembleCascadedUid 2 (cascadeTag :: part, announce) (some (last, sak)) none uidOut =
      if uidOut.length < uidLenDouble then none else some (storeAt uidOut 0 (part ++ last), sak, uidLenDouble) := by
  by_cases hshort : uidOut.length < uidLenDouble
  · simp [assembleCascadedUid, hshort]
  have hroom : cascadePartialUidLen + selRespLen ≤ uidOut.length := Nat.le_of_not_lt hshort
  have hfirst : copyFrom uidOut 0 (cascadeTag :: part) 1 cascadePartialUidLen = some (storeAt uidOut 0 part) :=
    copyFrom_behind_tag hpart (by omega)
  have hsecond : copyFrom (storeAt uidOut 0 part) cascadePartialUidLen last 0 selRespLen =
      some (storeAt uidOut 0 (part ++ last)) := by
    rw [copyFrom_part hlast (by rw [storeAt_length (by omega)]; exact hroom), ← hpart, storeAt_storeAt]
  simp [assembleCascadedUid, hannounce, hsak, hshort, hfirst, hsecond]

theorem assemble_triple {part middle last : Frame} {announce announce' sak : Byte}
    (hpart : part.length = cascadePartialUidLen) (hmiddle : middle.length = cascadePartialUidLen)
    (hlast : last.length = selRespLen) (hannounce : cascades announce = true) (hannounce' : cascades announce' = true)
    (hsak : cascades sak = false) (uidOut : Frame) :
    assembleCascadedUid 3 (cascadeTag :: part, announce) (some (cascadeTag :: middle, announce'))
      (some (last, sak)) uidOut =
      if uidOut.length < uidLenTriple then none
      else some (storeAt uidOut 0 (part ++ (middle ++ last)), sak, uidLenTriple) := by
  by_cases hshort : uidOut.length < uidLenTriple
  · simp [assembleCascadedUid, hshort]
  have hroom : 2 * cascadePartialUidLen + selRespLen ≤ uidOut.length := Nat.le_of_not_lt hshort
  have hfirst : copyFrom uidOut 0 (cascadeTag :: part) 1 cascadePartialUidLen = some (storeAt uidOut 0 part) :=
    copyFrom_behind_tag hpart (by omega)
  have hsecond : copyFrom (storeAt uidOut 0 part) cascadePartialUidLen (cascadeTag :: middle) 1 cascadePartialUidLen =
      some (storeAt uidOut 0 (part ++ middle)) := by
    rw [copyFrom_behind_tag hmiddle (by rw [storeAt_length (by omega)]; omega), ← hpart, storeAt_storeAt]
  have hlength : (part ++ middle).length = 2 * cascadePartialUidLen := by
    rw [List.length_append, hpart, hmiddle]
    rfl
  have hthird : copyFrom (storeAt uidOut 0 (part ++ middle)) (2 * cascadePartialUidLen) last 0 selRespLen =
      some (storeAt uidOut 0 (part ++ (middle ++ last))) := by
    rw [copyFrom_part hlast (by rw [storeAt_length (by omega)]; exact hroom), ← hlength, storeAt_storeAt,
      List.append_assoc]
  simp [assembleCascadedUid, hannounce, hannounce', hsak, hshort, hfirst, hsecond, hthird]

theorem assemble_untagged {levels : Nat} (hlevels : levels ≠ 1) {cl1 : Frame × Byte} (h : u8At cl1.1 0 ≠ cascadeTag)
    (cl2 cl3 : Option (Frame × Byte)) (uidOut : Frame) : assembleCascadedUid levels cl1 cl2 cl3 uidOut = none := by
  simp [assembleCascadedUid, hlevels, h]

theorem assemble_untagged_second (cl1 : Frame × Byte) {cl2 : Frame × Byte} (h : u8At cl2.1 0 ≠ cascadeTag)
    (cl3 : Option (Frame × Byte)) (uidOut : Frame) : assembleCascadedUid 3 cl1 (some cl2) cl3 uidOut = none := by
  simp [assembleCascadedUid, h]

/-- A part of a level that is not the last. -/
theorem exists_behind_tag {part : Frame} (hpart : part.length = selRespLen) (htag : u8At part 0 = cascadeTag) :
    ∃ rest, part = cascadeTag :: rest ∧ rest.length = cascadePartialUidLen := by
  cases part with
  | nil => exact absurd hpart (by decide)
  | cons tag rest => exact ⟨rest, congrArg (· :: rest) htag, Nat.succ.inj hpart⟩

/-! ### One level -/

/-- One level, as it is put on record. -/
inductive AsksLevel (selCmd : Byte) (part : Frame) (sak : Byte) : List (Request × Frame) → Prop where
  | intro (rest tail : Frame) : AsksLevel selCmd part sak
      [(.transceive [selCmd, anticollCode] false true, part ++ [bcc part] ++ rest),
        (.transceive ([selCmd, selectCode] ++ (part ++ [bcc part])) true false, sak :: tail)]

theorem bcc_append {part : Frame} (hpart : part.length = selRespLen) (rest : Frame) :
    bcc (part ++ rest) = bcc part := by
  have hlen : part.length = 4 := hpart
  rw [bcc, bcc, u8At_append_left _ _ (by omega), u8At_append_left _ _ (by omega), u8At_append_left _ _ (by omega),
    u8At_append_left _ _ (by omega)]

/-- An answer with a right check byte. -/
theorem exists_checked {rx : Frame} (hlen : sakMinRxLen ≤ rx.length) (hbcc : bcc rx = u8At rx bccIndex) :
    ∃ part rest, part.length = selRespLen ∧ rx = part ++ [bcc part] ++ rest := by
  have hfive : 5 ≤ rx.length := hlen
  have hpart : (rx.take 4).length = selRespLen := by
    rw [List.length_take, Nat.min_eq_left (by omega)]
    rfl
  refine ⟨rx.take 4, rx.drop 5, hpart, ?_⟩
  have hcheck : bcc (rx.take 4) = rx[4] := by
    rw [← bcc_append hpart (rx.drop 4), List.take_append_drop, hbcc, bccIndex, u8At, List.getD_eq_getElem?_getD,
      List.getElem?_eq_getElem hfive, Option.getD_some]
  rw [hcheck, List.take_concat_get' _ 4 hfive, List.take_append_drop]

theorem select_recorded (selCmd : Byte) (record : List (Request × Frame)) :
    (anticollisionSelect selCmd).Holds Dialogue.recorded (fun _ => True)
      (fun result record' => ∀ level, result = some level → level.1.length = selRespLen ∧
        ∃ talk, AsksLevel selCmd level.1 level.2 talk ∧ record' = record ++ talk) record := by
  refine Dialogue.holds_ask trivial fun rx record₁ hrx => ?_
  by_cases hlen : rx.length < sakMinRxLen
  · rw [if_pos hlen]
    exact Dialogue.holds_pure trivial (by simp)
  rw [if_neg hlen]
  by_cases hbcc : bcc rx ≠ u8At rx bccIndex
  · rw [if_pos hbcc]
    exact Dialogue.holds_pure trivial (by simp)
  rw [if_neg hbcc]
  obtain ⟨part, rest, hpart, rfl⟩ := exists_checked (Nat.le_of_not_lt hlen) (not_not.mp hbcc)
  have hcheck : (part ++ [bcc part] ++ rest).take sakMinRxLen = part ++ [bcc part] :=
    List.take_left' (by rw [List.length_append, hpart]; rfl)
  have hlevel : (part ++ [bcc part] ++ rest).take selRespLen = part := by
    rw [List.append_assoc]
    exact List.take_left' hpart
  refine Dialogue.holds_ask trivial fun sak record₂ hsak => ?_
  cases sak with
  | nil => exact Dialogue.holds_pure trivial (by simp)
  | cons sak tail =>
      refine Dialogue.holds_pure trivial ?_
      rintro level hsome
      obtain rfl : level = (part, sak) := by
        rw [← hlevel]
        exact (Option.some.inj hsome).symm
      refine ⟨hpart, _, .intro rest tail, ?_⟩
      rw [hsak, hrx, hcheck, List.append_assoc, List.singleton_append]

/-! ### Any answers -/

def selCmds : List Byte := [selCl1, selCl2, selCl3]

/-- Levels one after the other, each with its own command. -/
inductive AsksLevels : List Byte → List (Frame × Byte) → List (Request × Frame) → Prop where
  | done (selCmds : List Byte) : AsksLevels selCmds [] []
  | level {selCmd : Byte} {selCmds : List Byte} {level : Frame × Byte} {levels : List (Frame × Byte)}
      {talk rest : List (Request × Frame)} (first : AsksLevel selCmd level.1 level.2 talk)
      (others : AsksLevels selCmds levels rest) : AsksLevels (selCmd :: selCmds) (level :: levels) (talk ++ rest)

/-- A wake-up that was answered, at once or the second time. -/
inductive Wakes (retryWithReqa : Bool) : List (Request × Frame) → Prop where
  | first {atqa : Frame} (h : atqaLen ≤ atqa.length) : Wakes retryWithReqa [(.wupa, atqa)]
  | second {silent atqa : Frame} (hsilent : silent.length < atqaLen) (h : atqaLen ≤ atqa.length) :
      Wakes retryWithReqa [(.wupa, silent), (if retryWithReqa then .reqa else .wupa, atqa)]

/-- The activation that found this card. -/
def found (uidOut uid : Frame) (sak : Byte) : Activation := ⟨true, storeAt uidOut 0 uid, uid.length, sak⟩

/-- The levels on record are those of a card, and the card is reported. -/
def Finds (uidOut : Frame) (record : List (Request × Frame)) (result : Activation) (record' : List (Request × Frame)) :
    Prop :=
  ∃ levels talk uid sak, AsksLevels selCmds levels talk ∧ Shows levels uid sak ∧ uid.length ≤ uidOut.length ∧
    result = found uidOut uid sak ∧ record' = record ++ talk

/-- A UID that was put together is reported where there is room for it. -/
theorem assembled_eq {uidOut uid : Frame} {sak : Byte} {len : Nat} (huid : uid.length = len) :
    assembled uidOut (if uidOut.length < len then none else some (storeAt uidOut 0 uid, sak, len)) =
      if uid.length ≤ uidOut.length then found uidOut uid sak else failed uidOut := by
  subst huid
  by_cases hroom : uid.length ≤ uidOut.length
  · rw [if_neg (Nat.not_lt.mpr hroom), if_pos hroom]
    rfl
  · rw [if_pos (Nat.lt_of_not_le hroom), if_neg hroom]
    rfl

theorem finds_of_room {uidOut uid : Frame} {sak : Byte} {levels : List (Frame × Byte)}
    {record talk record' : List (Request × Frame)} {result : Activation} (hasks : AsksLevels selCmds levels talk)
    (hshows : Shows levels uid sak) (hrecord : record' = record ++ talk)
    (hresult : result = if uid.length ≤ uidOut.length then found uidOut uid sak else failed uidOut) :
    result = failed uidOut ∨ Finds uidOut record result record' := by
  by_cases hroom : uid.length ≤ uidOut.length
  · rw [if_pos hroom] at hresult
    exact .inr ⟨levels, talk, uid, sak, hasks, hshows, hroom, hresult, hrecord⟩
  · rw [if_neg hroom] at hresult
    exact .inl hresult

theorem finds_single (uidOut : Frame) {cl1 : Frame × Byte} {record talk : List (Request × Frame)}
    (hpart : cl1.1.length = selRespLen) (hsak : cascades cl1.2 = false) (hasks : AsksLevel selCl1 cl1.1 cl1.2 talk)
    {result : Activation} (hresult : result = assembled uidOut (assembleCascadedUid 1 cl1 none none uidOut)) :
    result = failed uidOut ∨ Finds uidOut record result (record ++ talk) := by
  have huid : cl1.1.length = uidLenSingle := hpart
  rw [assemble_single hpart hsak, assembled_eq huid] at hresult
  exact finds_of_room (.level hasks (.done _)) (.last hpart hsak) (by rw [List.append_nil]) hresult

theorem finds_double (uidOut : Frame) {cl1 cl2 : Frame × Byte} {record talk talk' : List (Request × Frame)}
    (hpart : cl1.1.length = selRespLen) (hannounce : cascades cl1.2 = true) (hasks : AsksLevel selCl1 cl1.1 cl1.2 talk)
    (hlast : cl2.1.length = selRespLen) (hsak : cascades cl2.2 = false) (hasks' : AsksLevel selCl2 cl2.1 cl2.2 talk')
    {result : Activation} (hresult : result = assembled uidOut (assembleCascadedUid 2 cl1 (some cl2) none uidOut)) :
    result = failed uidOut ∨ Finds uidOut record result (record ++ talk ++ talk') := by
  by_cases htag : u8At cl1.1 0 = cascadeTag
  swap
  · rw [assemble_untagged (by decide) htag] at hresult
    exact .inl hresult
  obtain ⟨part, hcl1, hlen⟩ := exists_behind_tag hpart htag
  obtain ⟨_, announce⟩ := cl1
  subst hcl1
  have huid : (part ++ cl2.1).length = uidLenDouble := by
    rw [List.length_append, hlen, hlast]
    rfl
  rw [assemble_double hlen hlast hannounce hsak, assembled_eq huid] at hresult
  exact finds_of_room (.level hasks (.level hasks' (.done _))) (.level hlen hannounce (.last hlast hsak))
    (by rw [List.append_nil, List.append_assoc]) hresult

theorem finds_triple (uidOut : Frame) {cl1 cl2 cl3 : Frame × Byte} {record talk talk' talk'' : List (Request × Frame)}
    (hpart : cl1.1.length = selRespLen) (hannounce : cascades cl1.2 = true) (hasks : AsksLevel selCl1 cl1.1 cl1.2 talk)
    (hmiddle : cl2.1.length = selRespLen) (hannounce' : cascades cl2.2 = true)
    (hasks' : AsksLevel selCl2 cl2.1 cl2.2 talk') (hlast : cl3.1.length = selRespLen)
    (hasks'' : AsksLevel selCl3 cl3.1 cl3.2 talk'') {result : Activation}
    (hresult : result = assembled uidOut (assembleCascadedUid 3 cl1 (some cl2) (some cl3) uidOut)) :
    result = failed uidOut ∨ Finds uidOut record result (record ++ talk ++ talk' ++ talk'') := by
  by_cases htag : u8At cl1.1 0 = cascadeTag
  swap
  · rw [assemble_untagged (by decide) htag] at hresult
    exact .inl hresult
  by_cases htag' : u8At cl2.1 0 = cascadeTag
  swap
  · rw [assemble_untagged_second _ htag'] at hresult
    exact .inl hresult
  obtain ⟨part, hcl1, hlen⟩ := exists_behind_tag hpart htag
  obtain ⟨middle, hcl2, hlen'⟩ := exists_behind_tag hmiddle htag'
  obtain ⟨_, announce⟩ := cl1
  obtain ⟨_, announce'⟩ := cl2
  subst hcl1 hcl2
  cases hsak : cascades cl3.2 with
  | true =>
      left
      rw [hresult]
      simp [assembleCascadedUid, hsak, assembled]
  | false =>
      have huid : (part ++ (middle ++ cl3.1)).length = uidLenTriple := by
        rw [List.length_append, List.length_append, hlen, hlen', hlast]
        rfl
      rw [assemble_triple hlen hlen' hlast hannounce hannounce' hsak, assembled_eq huid] at hresult
      exact finds_of_room (.level hasks (.level hasks' (.level hasks'' (.done _))))
        (.level hlen hannounce (.level hlen' hannounce' (.last hlast hsak)))
        (by rw [List.append_nil, List.append_assoc, List.append_assoc]) hresult

theorem selectLevels_recorded (uidOut : Frame) (record : List (Request × Frame)) :
    (selectLevels uidOut).Holds Dialogue.recorded (fun _ => True)
      (fun result record' => result = failed uidOut ∨ Finds uidOut record result record') record := by
  refine Dialogue.holds_bind (select_recorded selCl1 record) fun cl1 record₁ _ hcl1 => ?_
  cases cl1 with
  | none => exact Dialogue.holds_pure trivial (.inl rfl)
  | some cl1 =>
      obtain ⟨hpart, talk, hasks, rfl⟩ := hcl1 cl1 rfl
      cases hsak : cascades cl1.2 with
      | false =>
          simp only [hsak]
          exact Dialogue.holds_pure trivial (finds_single uidOut hpart hsak hasks rfl)
      | true =>
          simp only [hsak, if_true]
          refine Dialogue.holds_bind (select_recorded selCl2 _) fun cl2 record₂ _ hcl2 => ?_
          cases cl2 with
          | none => exact Dialogue.holds_pure trivial (.inl rfl)
          | some cl2 =>
              obtain ⟨hpart', talk', hasks', rfl⟩ := hcl2 cl2 rfl
              cases hsak' : cascades cl2.2 with
              | false =>
                  simp only [hsak']
                  exact Dialogue.holds_pure trivial (finds_double uidOut hpart hsak hasks hpart' hsak' hasks' rfl)
              | true =>
                  simp only [hsak', if_true]
                  refine Dialogue.holds_bind (select_recorded selCl3 _) fun cl3 record₃ _ hcl3 => ?_
                  cases cl3 with
                  | none => exact Dialogue.holds_pure trivial (.inl rfl)
                  | some cl3 =>
                      obtain ⟨hpart'', talk'', hasks'', rfl⟩ := hcl3 cl3 rfl
                      exact Dialogue.holds_pure trivial
                        (finds_triple uidOut hpart hsak hasks hpart' hsak' hasks' hpart'' hasks'' rfl)

theorem sendShortFrame_recorded (request : Request) (record : List (Request × Frame)) :
    (sendShortFrame request).Holds Dialogue.recorded (fun _ => True)
      (fun awake record' => ∃ atqa, awake = decide (atqaLen ≤ atqa.length) ∧ record' = record ++ [(request, atqa)])
      record :=
  Dialogue.holds_ask trivial fun atqa _ hrecord => Dialogue.holds_pure trivial ⟨atqa, rfl, hrecord⟩

theorem wakeUp_recorded (retryWithReqa : Bool) :
    (wakeUp retryWithReqa).Holds Dialogue.recorded (fun _ => True)
      (fun awake record => awake = true → Wakes retryWithReqa record) [] := by
  refine Dialogue.holds_bind (sendShortFrame_recorded .wupa []) ?_
  rintro awake _ _ ⟨atqa, rfl, rfl⟩
  by_cases hatqa : atqaLen ≤ atqa.length
  · rw [if_pos (decide_eq_true hatqa)]
    exact Dialogue.holds_pure trivial fun _ => .first hatqa
  rw [if_neg (mt of_decide_eq_true hatqa)]
  refine (sendShortFrame_recorded _ _).mono (fun _ _ => trivial) ?_
  rintro awake _ _ ⟨atqa', rfl, rfl⟩ hawake
  exact .second (Nat.lt_of_not_le hatqa) (of_decide_eq_true hawake)

/-- **Whatever is answered, an activation reports a card only when the levels on record are the levels of that card.**
Each level carried its check byte and was selected as it was received. Otherwise the outputs are cleared. -/
theorem activateTag_recorded (retryWithReqa : Bool) (uidOut : Frame) :
    (activateTag retryWithReqa uidOut).Holds Dialogue.recorded (fun _ => True)
      (fun result record => result = failed (clearedUid uidOut) ∨
        ∃ wake, Wakes retryWithReqa wake ∧ Finds (clearedUid uidOut) wake result record) [] := by
  rw [activateTag]
  by_cases hroom : uidOut.length < uidLenDouble
  · rw [if_pos hroom]
    exact Dialogue.holds_pure trivial (.inl rfl)
  rw [if_neg hroom]
  refine Dialogue.holds_bind (wakeUp_recorded retryWithReqa) fun awake wake _ hwake => ?_
  cases awake with
  | false => exact Dialogue.holds_pure trivial (.inl rfl)
  | true =>
      exact (selectLevels_recorded (clearedUid uidOut) wake).mono (fun _ _ => trivial)
        fun result record _ h => h.imp_right fun hfinds => ⟨wake, hwake rfl, hfinds⟩

/-! ### A card in the field -/

/-- A card of one to three levels, with its ATQA and what follows a SAK on the air. -/
structure Card where
  levels : List (Frame × Byte)
  uid : Frame
  sak : Byte
  shows : Shows levels uid sak
  short : levels.length ≤ selCmds.length
  atqa : Frame
  atqaLong : atqaLen ≤ atqa.length
  sakTail : Frame

/-- A card that sleeps may miss some wake-ups, and hears no REQA when it was halted. -/
inductive CardState where
  | asleep (halted : Bool) (misses : Nat)
  | ready (level : Nat)
  | active
  deriving DecidableEq, Repr

namespace Card

def wake (card : Card) (halted : Bool) : Nat → CardState × Frame
  | 0 => (.ready 0, card.atqa)
  | misses + 1 => (.asleep halted misses, [])

def selected (card : Card) (n : Nat) : CardState := if n + 1 = card.levels.length then .active else .ready (n + 1)

/-- The answer at one level. Any other frame sends the card to sleep. -/
def answerLevel (card : Card) (n : Nat) (level : Frame × Byte) (tx : Frame) (withCrc : Bool) : CardState × Frame :=
  if tx = [selCmds.getD n 0, anticollCode] ∧ withCrc = false then (.ready n, level.1 ++ [bcc level.1])
  else if tx = [selCmds.getD n 0, selectCode] ++ (level.1 ++ [bcc level.1]) ∧ withCrc = true then
    (card.selected n, level.2 :: card.sakTail)
  else (.asleep false 0, [])

def answer (card : Card) : CardState → Request → CardState × Frame
  | .asleep halted misses, .wupa => card.wake halted misses
  | .asleep halted misses, .reqa => if halted then (.asleep halted misses, []) else card.wake halted misses
  | .ready n, .transceive tx withCrc _ =>
      ((card.levels[n]?).map fun level => card.answerLevel n level tx withCrc).getD (.asleep false 0, [])
  | _, _ => (.asleep false 0, [])

def peer (card : Card) (state : CardState) (request : Request) (rx : Frame) (state' : CardState) : Prop :=
  (state', rx) = card.answer state request

theorem select (card : Card) {n : Nat} {level : Frame × Byte} (hlevel : card.levels[n]? = some level) :
    (anticollisionSelect (selCmds.getD n 0)).Holds card.peer (fun _ => True)
      (fun result state => result = some level ∧ state = card.selected n) (.ready n) := by
  have hpart : level.1.length = selRespLen := card.shows.part_length level (List.mem_of_getElem? hlevel)
  have hfull : (level.1 ++ [bcc level.1]).length = sakMinRxLen := by
    rw [List.length_append, hpart]
    rfl
  have hcheck : bcc (level.1 ++ [bcc level.1]) = u8At (level.1 ++ [bcc level.1]) bccIndex := by
    have hbehind : u8At (level.1 ++ [bcc level.1]) bccIndex = u8At [bcc level.1] (bccIndex - level.1.length) :=
      u8At_append_right _ _ hpart.le
    rw [bcc_append hpart, hbehind, hpart]
    rfl
  refine Dialogue.holds_ask trivial fun rx state hstep => ?_
  obtain ⟨rfl, rfl⟩ : state = .ready n ∧ rx = level.1 ++ [bcc level.1] := by
    have hanswer : (state, rx) = (.ready n, level.1 ++ [bcc level.1]) := by
      rw [hstep, answer, hlevel, Option.map_some, Option.getD_some, answerLevel, if_pos ⟨rfl, rfl⟩]
    exact ⟨congrArg Prod.fst hanswer, congrArg Prod.snd hanswer⟩
  rw [if_neg (by rw [hfull]; exact Nat.lt_irrefl _), if_neg (not_not.mpr hcheck), List.take_of_length_le hfull.le,
    List.take_left' hpart]
  refine Dialogue.holds_ask trivial fun rx state hstep => ?_
  have hdiffer : [selCmds.getD n 0, selectCode] ++ (level.1 ++ [bcc level.1]) ≠ [selCmds.getD n 0, anticollCode] := by
    intro h
    have hlength := congrArg List.length h
    rw [List.length_append, hfull] at hlength
    exact Nat.noConfusion (Nat.succ.inj (Nat.succ.inj hlength))
  obtain ⟨rfl, rfl⟩ : state = card.selected n ∧ rx = level.2 :: card.sakTail := by
    have hanswer : (state, rx) = (card.selected n, level.2 :: card.sakTail) := by
      rw [hstep, answer, hlevel, Option.map_some, Option.getD_some, answerLevel, if_neg (fun h => hdiffer h.1),
        if_pos ⟨rfl, rfl⟩]
    exact ⟨congrArg Prod.fst hanswer, congrArg Prod.snd hanswer⟩
  exact Dialogue.holds_pure trivial ⟨rfl, rfl⟩

theorem selectLevels (card : Card) (uidOut : Frame) :
    (Anticollision.selectLevels uidOut).Holds card.peer (fun _ => True)
      (fun result state => state = .active ∧
        result = if card.uid.length ≤ uidOut.length then found uidOut card.uid card.sak else failed uidOut)
          (.ready 0) := by
  obtain ⟨levels, uid, sak, hshows, hshort, atqa, hatqa, sakTail⟩ := card
  rcases hshows with ⟨hpart, hsak⟩ | ⟨hpart, hannounce, hrest⟩
  · refine Dialogue.holds_bind (select _ (n := 0) rfl) ?_
    rintro _ _ _ ⟨rfl, rfl⟩
    simp only [hsak]
    have huid : uid.length = uidLenSingle := hpart
    refine Dialogue.holds_pure trivial ⟨rfl, ?_⟩
    rw [assemble_single hpart hsak, assembled_eq huid]
  refine Dialogue.holds_bind (select _ (n := 0) rfl) ?_
  rintro _ _ _ ⟨rfl, rfl⟩
  simp only [hannounce, if_true]
  rcases hrest with ⟨hlast, hsak⟩ | ⟨hmiddle, hannounce', hrest⟩
  · refine Dialogue.holds_bind (select _ (n := 1) rfl) ?_
    rintro _ _ _ ⟨rfl, rfl⟩
    simp only [hsak]
    refine Dialogue.holds_pure trivial ⟨rfl, ?_⟩
    rw [assemble_double hpart hlast hannounce hsak, assembled_eq (by rw [List.length_append, hpart, hlast]; rfl)]
  refine Dialogue.holds_bind (select _ (n := 1) rfl) ?_
  rintro _ _ _ ⟨rfl, rfl⟩
  simp only [hannounce', if_true]
  rcases hrest with ⟨hlast, hsak⟩ | ⟨_, _, hrest⟩
  · refine Dialogue.holds_bind (select _ (n := 2) rfl) ?_
    rintro _ _ _ ⟨rfl, rfl⟩
    refine Dialogue.holds_pure trivial ⟨rfl, ?_⟩
    rw [assemble_triple hpart hmiddle hlast hannounce hannounce' hsak,
      assembled_eq (by rw [List.length_append, List.length_append, hpart, hmiddle, hlast]; rfl)]
  · -- a fourth level
    cases hrest <;> exact absurd hshort (by simp [selCmds])

/-- The card hears one of the wake-ups. -/
def Hears (retryWithReqa halted : Bool) (misses : Nat) : Prop :=
  misses = 0 ∨ misses = 1 ∧ (retryWithReqa = true → halted = false)

instance (retryWithReqa halted : Bool) (misses : Nat) : Decidable (Hears retryWithReqa halted misses) := by
  unfold Hears
  infer_instance

theorem wakeUp (card : Card) (retryWithReqa halted : Bool) (misses : Nat) :
    (Anticollision.wakeUp retryWithReqa).Holds card.peer (fun _ => True)
      (fun awake state => awake = decide (Hears retryWithReqa halted misses) ∧ (awake = true → state = .ready 0))
      (.asleep halted misses) := by
  have hshort (request : Request) {state : CardState} : (sendShortFrame request).Holds card.peer (fun _ => True)
      (fun awake state' => awake = decide (atqaLen ≤ (card.answer state request).2.length) ∧
        state' = (card.answer state request).1) state :=
    Dialogue.holds_ask trivial fun rx state' hstep => Dialogue.holds_pure trivial
      ⟨by rw [← hstep], by rw [← hstep]⟩
  have hlong := decide_eq_true card.atqaLong
  have hnone : decide (atqaLen ≤ ([] : Frame).length) = false := rfl
  have hpositive : atqaLen ≠ 0 := Nat.succ_ne_zero 1
  refine Dialogue.holds_bind (hshort .wupa) ?_
  rintro awake state _ ⟨hawake, hstate⟩
  cases misses with
  | zero =>
      rw [answer, wake, hlong] at hawake
      subst hawake
      exact Dialogue.holds_pure trivial ⟨(decide_eq_true (.inl rfl)).symm, fun _ => hstate⟩
  | succ misses =>
      rw [answer, wake, hnone] at hawake
      rw [answer, wake] at hstate
      subst hawake hstate
      refine (hshort _).mono (fun _ _ => trivial) ?_
      rintro awake state _ ⟨rfl, rfl⟩
      cases misses with
      | succ misses =>
          have hdeaf : ¬ Hears retryWithReqa halted (misses + 1 + 1) := by simp [Hears]
          rw [decide_eq_false hdeaf]
          cases retryWithReqa <;> cases halted <;> simp [answer, wake, hpositive]
      | zero =>
          cases retryWithReqa <;> cases halted <;> simp [answer, wake, Hears, card.atqaLong, hpositive]

end Card

theorem clearedUid_length (uidOut : Frame) : (clearedUid uidOut).length = uidOut.length := by
  by_cases hroom : uidLenDouble ≤ uidOut.length
  · rw [clearedUid, if_pos hroom, storeAt_length (by rw [List.length_replicate, Nat.zero_add]; exact hroom)]
  · rw [clearedUid, if_neg hroom]

/-- There is room for every UID up to seven bytes, whatever the card's own, and for this one. -/
def Room (uid uidOut : Frame) : Prop := uidLenDouble ≤ uidOut.length ∧ uid.length ≤ uidOut.length

/-- **A card in the field is activated, with exactly its UID and its SAK, when it hears a wake-up and its UID has
room.** Otherwise the outputs are cleared, of a buffer that has room for seven bytes. -/
theorem activateTag_card (card : Card) (retryWithReqa halted : Bool) (misses : Nat) (uidOut : Frame) :
    (activateTag retryWithReqa uidOut).Holds card.peer (fun _ => True)
      (fun result state =>
        (Card.Hears retryWithReqa halted misses ∧ Room card.uid uidOut →
          result = found (clearedUid uidOut) card.uid card.sak ∧ state = .active) ∧
        (¬ (Card.Hears retryWithReqa halted misses ∧ Room card.uid uidOut) → result = failed (clearedUid uidOut)))
      (.asleep halted misses) := by
  rw [activateTag]
  by_cases hroom : uidOut.length < uidLenDouble
  · rw [if_pos hroom]
    exact Dialogue.holds_pure trivial ⟨fun h => absurd h.2.1 (Nat.not_le.mpr hroom), fun _ => rfl⟩
  rw [if_neg hroom]
  refine Dialogue.holds_bind (card.wakeUp retryWithReqa halted misses) ?_
  rintro awake state _ ⟨hawake, hready⟩
  cases awake with
  | false =>
      have hdeaf : ¬ Card.Hears retryWithReqa halted misses := of_decide_eq_false hawake.symm
      exact Dialogue.holds_pure trivial ⟨fun h => absurd h.1 hdeaf, fun _ => rfl⟩
  | true =>
      obtain rfl := hready rfl
      have hhears : Card.Hears retryWithReqa halted misses := of_decide_eq_true hawake.symm
      refine (card.selectLevels (clearedUid uidOut)).mono (fun _ _ => trivial) ?_
      rintro result state _ ⟨hstate, hresult⟩
      rw [clearedUid_length] at hresult
      refine ⟨fun h => ⟨by rw [hresult, if_pos h.2.2], hstate⟩, fun h => ?_⟩
      rw [hresult, if_neg fun huid => h ⟨hhears, Nat.le_of_not_lt hroom, huid⟩]

/-- A card with a UID of seven bytes, in two levels. -/
def cardOfSeven : Card where
  levels := [([0x88, 0x04, 0xA1, 0xB2], 0x04), ([0xC3, 0xD4, 0xE5, 0x80], 0x20)]
  uid := [0x04, 0xA1, 0xB2, 0xC3, 0xD4, 0xE5, 0x80]
  sak := 0x20
  shows := .level rfl rfl (.last rfl rfl)
  short := by decide
  atqa := [0x44, 0x03]
  atqaLong := by decide
  sakTail := [0xFC, 0x70]

/-- A card with a UID of four bytes. -/
def cardOfFour : Card where
  levels := [([0x5A, 0x01, 0x02, 0x03], 0x08)]
  uid := [0x5A, 0x01, 0x02, 0x03]
  sak := 0x08
  shows := .last rfl rfl
  short := by decide
  atqa := [0x04, 0x00]
  atqaLong := by decide
  sakTail := []

/-- A halted card that misses one wake-up is activated into a buffer of eight bytes by the second; the card with the
shorter UID is refused for a buffer of six, which stays as it was. -/
theorem activateTag_card_two :
    (activateTag false (List.replicate 8 0xEE)).Holds cardOfSeven.peer (fun _ => True)
        (fun result state => result = ⟨true, cardOfSeven.uid ++ [0xEE], 7, 0x20⟩ ∧ state = .active) (.asleep true 1) ∧
      (activateTag true (List.replicate 6 0xEE)).Holds cardOfFour.peer (fun _ => True)
        (fun result _ => result = ⟨false, List.replicate 6 0xEE, 0, 0⟩) (.asleep false 0) := by
  refine ⟨(activateTag_card cardOfSeven false true 1 (List.replicate 8 0xEE)).mono (fun _ _ => trivial) ?_,
    (activateTag_card cardOfFour true false 0 (List.replicate 6 0xEE)).mono (fun _ _ => trivial) ?_⟩
  · rintro result state - ⟨hactivated, -⟩
    obtain ⟨rfl, rfl⟩ := hactivated ⟨by decide, by decide, by decide⟩
    exact ⟨by decide, rfl⟩
  · rintro result state - ⟨-, hrefused⟩
    exact hrefused fun h => absurd h.2.1 (by decide)

end NeroReader.Anticollision
