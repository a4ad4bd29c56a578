import NeroReader.TagCommands

/-!
Reads of several units by the commands that bring several at once, with the reads of single units behind them.
`type2ReadBinary` and `type5ReadBinary` return the memory's bytes, in whole steps, whichever command is refused,
cut short or fails, except where a short READ MULTIPLE starts at a block of one byte and goes on behind block 255
(`fast_read_agrees_iff`).
-/

namespace NeroReader.Tags

open Ndef Storage

/-! ### The Type 2 read -/

/-- The READ loop of `reader_tags_type2_read_binary`. -/
def type2ReadPagesFrom (tag : Type2Tag) (cap : Nat) : Nat → Nat → Frame → Frame
  | 0, _, copied => copied
  | fuel + 1, page, copied =>
      if copied.length < cap then
        let chunk := min (cap - copied.length) t2tReadRespBytes
        if 0xFF < page then copied
        else
          match (tag.read page).filter (chunk ≤ ·.length) with
          | none => copied
          | some rx => type2ReadPagesFrom tag cap fuel (page + t2tReadRespPages) (copied ++ rx.take chunk)
      else copied

/-- `reader_tags_type2_read_binary`: the bytes copied, and whether FAST_READ is given up for this tag. -/
def type2ReadBinary (tag : Type2Tag) (fastReadAllowed : Bool) (page cap : Nat) : Frame × Bool :=
  let pages := cap / t2tPageSizeBytes
  let lastPage := page + pages - 1
  if t2tReadRespBytes ≤ cap ∧ page ≤ 0xFF ∧ fastReadAllowed ∧ pages ≠ 0 ∧ lastPage ≤ 0xFF then
    let fast := ntagFastRead tag page lastPage
    if fast.2 then (type2ReadPagesFrom tag cap cap (page + pages) fast.1, false)
    else (type2ReadPagesFrom tag cap cap page [], true)
  else (type2ReadPagesFrom tag cap cap page [], false)

/-- What the callers get: a read that copied nothing is an error. -/
def returned (copied : Frame) : Option Frame := if copied.length = 0 then none else some copied

/-! ### Reading unit by unit -/

/-- Units read one by one, up to the first that cannot be read. -/
def oneByOne (read : Nat → Option Frame) : Nat → Nat → Frame
  | _, 0 => []
  | unit, count + 1 =>
      match (read unit).filter (4 ≤ ·.length) with
      | none => []
      | some rx => rx.take 4 ++ oneByOne read (unit + 1) count

def units (len : Nat) : Nat := (len + 3) / 4

/-- Every read of the span's units brings this many bytes. -/
def NoStepFails (read : Nat → Option Frame) (unit count stepLen : Nat) : Prop :=
  ∀ u, unit ≤ u → u < unit + count → ∃ rx, read u = some rx ∧ stepLen ≤ rx.length

/-- The read fails, or returns the memory's bytes in whole steps: all of them when no step fails, and they are
those of the reads one by one. -/
structure ReadAgrees (memory : Nat → Byte) (read : Nat → Option Frame) (stepLen unit cap : Nat)
    (whole : Nat → Prop) (ret : Option Frame) : Prop where
  bytes (r : Frame) : ret = some r → r.length ≤ cap ∧ r = bytesAt memory (4 * unit) r.length
  steps (r : Frame) : ret = some r → r.length = cap ∨ whole r.length
  full : NoStepFails read unit (units cap) stepLen → ret = some ((oneByOne read unit (units cap)).take cap) ∧
    ((oneByOne read unit (units cap)).take cap).length = cap

section Reads

variable {memory : Nat → Byte}

theorem oneByOne_eq {read : Nat → Option Frame} {unit count limit : Nat} (hlimit : 4 * (unit + count) ≤ limit)
    (hread : ∀ u rx, unit ≤ u → u < unit + count → read u = some rx →
      CutFrom memory (4 * u) (4 * u + 4) rx) (hall : NoStepFails read unit count 4) :
    oneByOne read unit count = bytesAt memory (4 * unit) (4 * count) := by
  induction count generalizing unit with
  | zero => rfl
  | succ count ih =>
      obtain ⟨rx, hrx, hlen⟩ := hall unit (Nat.le_refl _) (by omega)
      rw [oneByOne, hrx, Option.filter_some_pos (by simpa using hlen)]
      dsimp only
      rw [(hread unit rx (Nat.le_refl _) (by omega) hrx).take hlen (Nat.le_refl _), ih (by omega)
        (fun u rx hu hu' => hread u rx (by omega) (by omega)) (fun u hu hu' => hall u (by omega) (by omega)),
        show 4 * (unit + 1) = 4 * unit + 4 by omega, bytesAt_append]
      congr 1
      omega

theorem readAgrees_of_bytes {read : Nat → Option Frame} {stepLen unit cap n : Nat} {whole : Nat → Prop}
    (hstep : 4 ≤ stepLen) (hcap : 0 < cap) (hn : n ≤ cap) (hwhole : n = cap ∨ whole n)
    (hread : ∀ u rx, unit ≤ u → u < unit + units cap → read u = some rx → CutFrom memory (4 * u) (4 * u + 4) rx)
    (hfull : NoStepFails read unit (units cap) stepLen → n = cap) :
    ReadAgrees memory read stepLen unit cap whole (returned (bytesAt memory (4 * unit) n)) := by
  refine ⟨fun r hr => ?_, fun r hr => ?_, fun hall => ?_⟩
  · rw [returned] at hr
    split at hr
    next => exact absurd hr (by simp)
    next =>
      obtain rfl := Option.some.inj hr
      rw [bytesAt_length]
      exact ⟨hn, rfl⟩
  · rw [returned] at hr
    split at hr
    next => exact absurd hr (by simp)
    next =>
      obtain rfl := Option.some.inj hr
      rwa [bytesAt_length]
  · have hunits : cap ≤ 4 * units cap := by
      rw [units]
      omega
    have hone : (oneByOne read unit (units cap)).take cap = bytesAt memory (4 * unit) cap := by
      rw [oneByOne_eq (Nat.le_refl _) hread fun u hu hu' => ?_, bytesAt_take memory _ hunits]
      obtain ⟨rx, hrx, hlen⟩ := hall u hu hu'
      exact ⟨rx, hrx, Nat.le_trans hstep hlen⟩
    rw [hone, bytesAt_length, hfull hall, returned, bytesAt_length, if_neg (Nat.ne_of_gt hcap)]
    exact ⟨rfl, rfl⟩

/-! ### Type 2 steps -/

/-- What a Type 2 tag answers for the pages of a span. -/
structure Type2Reads (memory : Nat → Byte) (limit : Nat) (tag : Type2Tag) : Prop where
  read (page : Nat) (rx : Frame) : page ≤ 0xFF → tag.read page = some rx → CutFrom memory (4 * page) limit rx
  fastRead (first last : Nat) (rx : Frame) : first ≤ last → last ≤ 0xFF → tag.fastRead first last = some rx →
    CutFrom memory (4 * first) limit rx

theorem ntagFastReadFrom_bytes {tag : Type2Tag} {limit base last : Nat} (htag : Type2Reads memory limit tag)
    (hlast : last ≤ 0xFF) (hlimit : 4 * (last + 1) ≤ limit) :
    ∀ fuel page, base ≤ page → page ≤ last + 1 → last + 1 ≤ fuel + page →
      (ntagFastReadFrom tag last fuel page (bytesAt memory (4 * base) (4 * (page - base)))).2 = true →
      (ntagFastReadFrom tag last fuel page (bytesAt memory (4 * base) (4 * (page - base)))).1 =
        bytesAt memory (4 * base) (4 * (last + 1 - base)) := by
  intro fuel
  induction fuel with
  | zero =>
      intro page hbase hpage hfuel _
      rw [ntagFastReadFrom, show page = last + 1 by omega]
  | succ fuel ih =>
      intro page hbase hpage hfuel
      rw [ntagFastReadFrom]
      by_cases hend : last < page
      · intro _
        rw [if_pos hend, show page = last + 1 by omega]
      rw [if_neg hend]
      generalize hcount : min (last - page + 1) (fastReadRespBytesMax / t2tPageSizeBytes) = count
      have hbounds : 0 < count ∧ page + count ≤ last + 1 := by
        rw [fastReadRespBytesMax, t2tPageSizeBytes] at hcount
        omega
      dsimp only
      cases hrx : tag.fastRead page (page + count - 1) with
      | none =>
          intro h
          exact absurd h (by simp)
      | some rx =>
          dsimp only
          by_cases hshort : rx.length < count * t2tPageSizeBytes
          · intro h
            rw [if_pos hshort] at h
            exact absurd h (by simp)
          rw [if_neg hshort]
          have hcut := htag.fastRead page (page + count - 1) rx (by omega) (by omega) hrx
          rw [t2tPageSizeBytes] at hshort ⊢
          have hcopied : bytesAt memory (4 * base) (4 * (page - base)) ++ rx.take (count * 4) =
              bytesAt memory (4 * base) (4 * (page + count - base)) := by
            rw [hcut.take (by omega) (by omega), show 4 * page = 4 * base + 4 * (page - base) by omega, bytesAt_append]
            congr 1
            omega
          rw [hcopied]
          exact ih (page + count) (by omega) (by omega) (by omega)

theorem ntagFastRead_bytes {tag : Type2Tag} {limit first last : Nat} (htag : Type2Reads memory limit tag)
    (hle : first ≤ last) (hlast : last ≤ 0xFF) (hlimit : 4 * (last + 1) ≤ limit)
    (hok : (ntagFastRead tag first last).2 = true) :
    (ntagFastRead tag first last).1 = bytesAt memory (4 * first) (4 * (last + 1 - first)) := by
  have hrun := @ntagFastReadFrom_bytes memory tag limit first last htag hlast hlimit (last - first + 1) first
    (Nat.le_refl _) (by omega) (by omega)
  rw [Nat.sub_self, Nat.mul_zero, bytesAt_zero] at hrun
  exact hrun hok

/-- The READ loop copies the memory's bytes, 16 at a time. -/
theorem type2ReadPagesFrom_bytes {tag : Type2Tag} {limit base start cap : Nat} (htag : Type2Reads memory limit tag)
    (hlimit : 4 * base + cap ≤ limit) :
    ∀ fuel k, 4 * start + 16 * k < cap + 16 →
      ∃ n, type2ReadPagesFrom tag cap fuel (base + start + 4 * k)
          (bytesAt memory (4 * base) (min (4 * start + 16 * k) cap)) = bytesAt memory (4 * base) n ∧ n ≤ cap ∧
        (n = cap ∨ ∃ j, n = 4 * start + 16 * j) ∧
        (cap ≤ fuel + (4 * start + 16 * k) → ∀ m, base + m ≤ 0x100 → NoStepFails tag.read base m t2tReadRespBytes →
          min (4 * m) cap ≤ n) := by
  intro fuel
  induction fuel with
  | zero =>
      intro k hk
      refine ⟨min (4 * start + 16 * k) cap, rfl, Nat.min_le_right _ _, ?_, fun hfuel _ _ _ => ?_⟩
      · rcases Nat.le_total (4 * start + 16 * k) cap with hle | hle
        · exact Or.inr ⟨k, Nat.min_eq_left hle⟩
        · exact Or.inl (Nat.min_eq_right hle)
      · omega
  | succ fuel ih =>
      intro k hk
      rw [type2ReadPagesFrom, bytesAt_length]
      by_cases hmore : min (4 * start + 16 * k) cap < cap
      swap
      · rw [if_neg hmore]
        exact ⟨_, rfl, Nat.min_le_right _ _, Or.inl (by omega), fun _ _ _ _ => by omega⟩
      have hlt : 4 * start + 16 * k < cap := by omega
      rw [if_pos hmore, Nat.min_eq_left (Nat.le_of_lt hlt)]
      dsimp only
      by_cases hpage : 0xFF < base + start + 4 * k
      · rw [if_pos hpage]
        exact ⟨_, rfl, Nat.le_of_lt hlt, Or.inr ⟨k, rfl⟩, fun _ m hend _ => by omega⟩
      rw [if_neg hpage]
      cases hrx : (tag.read (base + start + 4 * k)).filter
          (fun rx => decide (min (cap - (4 * start + 16 * k)) t2tReadRespBytes ≤ rx.length)) with
      | none =>
          refine ⟨_, rfl, Nat.le_of_lt hlt, Or.inr ⟨k, rfl⟩, fun _ m _ hall => ?_⟩
          by_contra hfew
          obtain ⟨rx, hread, hlen⟩ := hall (base + start + 4 * k) (by omega) (by omega)
          have hshort := Option.filter_eq_none_iff.mp hrx rx hread
          rw [decide_eq_true_eq] at hshort
          exact absurd (Nat.le_trans (Nat.min_le_right _ _) hlen) hshort
      | some rx =>
          obtain ⟨hread, hlen⟩ := Option.filter_eq_some_iff.mp hrx
          rw [decide_eq_true_eq, t2tReadRespBytes] at hlen
          rw [t2tReadRespBytes, t2tReadRespPages]
          have hcut := htag.read _ rx (by omega) hread
          have hcopied : bytesAt memory (4 * base) (4 * start + 16 * k) ++
              rx.take (min (cap - (4 * start + 16 * k)) 16) =
              bytesAt memory (4 * base) (min (4 * start + 16 * (k + 1)) cap) := by
            rw [hcut.take hlen (by omega), show 4 * (base + start + 4 * k) = 4 * base + (4 * start + 16 * k) by omega,
              bytesAt_append]
            congr 1
            omega
          dsimp only
          rw [hcopied, show base + start + 4 * k + 4 = base + start + 4 * (k + 1) by omega]
          obtain ⟨n, hn, hle, hsteps, hfull⟩ := ih (k + 1) (by omega)
          exact ⟨n, hn, hle, hsteps, fun hfuel => hfull (by omega)⟩

theorem Type2Answers.reads {limit : Nat} {transceive : Transceive} (h : Type2Answers memory limit transceive)
    (family : Type2Family) (maxUserPage : Nat) : Type2Reads memory limit (.over transceive family maxUserPage) :=
  ⟨fun _ _ hpage hrx => h.over_read hpage hrx, fun _ _ _ hle hlast hrx => h.over_fastRead hle hlast hrx⟩

/-- Steps of four pages, or the one step of a FAST_READ over the whole pages. -/
def WholeType2Steps (cap n : Nat) : Prop := 16 ∣ n ∨ n = 4 * (cap / 4)

/-- A Type 2 read copies the memory's bytes, at least those of the units in front of the first failure. -/
theorem type2ReadBinary_bytes {tag : Type2Tag} {page cap : Nat} (hend : page + units cap ≤ 0x100)
    (htag : Type2Reads memory (4 * (page + units cap)) tag) (fastReadAllowed : Bool) :
    ∃ n, (type2ReadBinary tag fastReadAllowed page cap).1 = bytesAt memory (4 * page) n ∧ n ≤ cap ∧
      (n = cap ∨ WholeType2Steps cap n) ∧
      ∀ m ≤ units cap, NoStepFails tag.read page m t2tReadRespBytes → min (4 * m) cap ≤ n := by
  have hspan : 4 * page + cap ≤ 4 * (page + units cap) := by
    rw [units]
    omega
  have hslow : ∃ n, type2ReadPagesFrom tag cap cap page [] = bytesAt memory (4 * page) n ∧ n ≤ cap ∧
      (n = cap ∨ WholeType2Steps cap n) ∧
      ∀ m ≤ units cap, NoStepFails tag.read page m t2tReadRespBytes → min (4 * m) cap ≤ n := by
    obtain ⟨n, hn, hle, hsteps, hfull⟩ := @type2ReadPagesFrom_bytes memory tag _ page 0 cap htag hspan cap 0 (by omega)
    refine ⟨n, hn, hle, ?_, fun m hm hall => hfull (by omega) m (by omega) hall⟩
    rcases hsteps with hcap | ⟨j, hj⟩
    · exact Or.inl hcap
    · exact Or.inr (Or.inl ⟨j, by omega⟩)
  rw [type2ReadBinary]
  dsimp only
  split
  next hfast =>
    obtain ⟨-, -, -, hpages, hlast⟩ := hfast
    rw [t2tPageSizeBytes] at hpages hlast ⊢
    split
    next hok =>
      have hbytes := ntagFastRead_bytes htag (by omega) hlast (by rw [units]; omega) hok
      rw [show page + cap / 4 - 1 + 1 - page = cap / 4 by omega] at hbytes
      obtain ⟨n, hn, hle, hsteps, hfull⟩ := @type2ReadPagesFrom_bytes memory tag _ page (cap / 4) cap htag hspan cap 0
        (by omega)
      simp only [Nat.mul_zero, Nat.add_zero] at hn
      rw [Nat.min_eq_left (by omega)] at hn
      refine ⟨n, by rw [hbytes, hn], hle, ?_, fun m hm hall => hfull (by omega) m (by omega) hall⟩
      rcases hsteps with hcap | ⟨j, hj⟩
      · exact Or.inl hcap
      · rcases Nat.eq_zero_or_pos j with rfl | hj'
        · exact Or.inr (Or.inr (by omega))
        · exact Or.inl (by omega)
    next => exact hslow
  next => exact hslow

/-- **Type 2.** The read agrees with the reads one by one. -/
theorem type2ReadBinary_agrees {tag : Type2Tag} {page cap : Nat} (hpos : 0 < cap) (hend : page + units cap ≤ 0x100)
    (htag : Type2Reads memory (4 * (page + units cap)) tag) (fastReadAllowed : Bool) :
    ReadAgrees memory tag.read t2tReadRespBytes page cap (WholeType2Steps cap)
      (returned (type2ReadBinary tag fastReadAllowed page cap).1) := by
  obtain ⟨n, hn, hle, hsteps, hfull⟩ := type2ReadBinary_bytes hend htag fastReadAllowed
  have hread (u : Nat) (rx : Frame) (_ : page ≤ u) (hu : u < page + units cap) (hrx : tag.read u = some rx) :
      CutFrom memory (4 * u) (4 * u + 4) rx := by
    intro i hi hlimit
    exact htag.read u rx (by omega) hrx i hi (by omega)
  rw [hn]
  refine readAgrees_of_bytes (by decide) hpos hle hsteps hread fun hall => ?_
  have hall' := hfull (units cap) (Nat.le_refl _) hall
  rw [units] at hall'
  omega

/-! ### Type 5 steps -/

/-- A short READ MULTIPLE that starts at a block of one byte goes on behind block 255. -/
def CrossesOneByte (block cap : Nat) : Prop :=
  block ≤ iso15693BlockAddr1ByteMax ∧ 0x100 < block + cap / t5UserBlockSize ∧
  (0x100 - block) % readMultipleBlocksMax ≠ 0

/-- What a Type 5 tag answers. -/
structure Type5Reads (memory : Nat → Byte) (wide : Bool) (tag : Type5Tag) : Prop where
  readBlock (block : Nat) (rx : Frame) : block < 0x10000 → tag.readBlock block = some rx →
    CutFrom memory (4 * block) (4 * block + 4) rx
  readMultiple (first count : Nat) (rx : Frame) : first < 0x10000 → count ≤ readMultipleBlocksMax →
    tag.readMultiple first count = some rx →
    CutFrom memory (4 * first) (multipleEnd wide first) rx

theorem Type5Answers.reads {uid : Frame} {wide : Bool} {transceive : Transceive}
    (h : Type5Answers memory uid wide transceive) : Type5Reads memory wide (.over transceive uid) :=
  ⟨fun _ _ hblock hrx => h.over_readBlock hblock hrx,
    fun _ _ _ hfirst hcount hrx => (h.over_readMultiple hfirst hcount hrx).1⟩

/-- The loop copies the memory's bytes, block by block or several blocks at a time. -/
theorem type5ReadBinaryFrom_bytes {tag : Type5Tag} {wide off : Bool} {base cap : Nat}
    (htag : Type5Reads memory wide tag)
    (hend : base + units cap ≤ 0x10000) (hcross : wide ∨ off ∨ ¬ CrossesOneByte base cap) :
    ∀ fuel disabled k, 4 * k < cap + 4 → (off = true → disabled = true) →
      (disabled = true ∨ readMultipleBlocksMax ∣ k ∨ cap / 4 ≤ k) →
      ∃ n, (type5ReadBinaryFrom tag cap fuel disabled (base + k) (bytesAt memory (4 * base) (min (4 * k) cap))).1 =
          bytesAt memory (4 * base) n ∧ n ≤ cap ∧ (n = cap ∨ 4 ∣ n) ∧
        (cap ≤ fuel + 4 * k → ∀ m, NoStepFails tag.readBlock base m t5UserBlockSize → min (4 * m) cap ≤ n) := by
  intro fuel
  induction fuel with
  | zero =>
      intro disabled k hk _ _
      refine ⟨min (4 * k) cap, rfl, Nat.min_le_right _ _, by omega, fun hfuel _ _ => by omega⟩
  | succ fuel ih =>
      intro disabled k hk hoff hstep
      rw [type5ReadBinaryFrom, bytesAt_length]
      by_cases hmore : min (4 * k) cap < cap
      swap
      · rw [if_neg hmore]
        exact ⟨_, rfl, Nat.min_le_right _ _, Or.inl (by omega), fun _ _ _ => by omega⟩
      have hlt : 4 * k < cap := by omega
      have hblock : base + k < 0x10000 := by
        rw [units] at hend
        omega
      have hsub : (cap - 4 * k) / t5UserBlockSize = cap / 4 - k := by
        rw [t5UserBlockSize]
        omega
      rw [if_pos hmore, Nat.min_eq_left (Nat.le_of_lt hlt), hsub]
      dsimp only
      generalize hseveral : (decide (1 < cap / 4 - k) && !disabled) = several
      cases hmulti : (if several = true then
          (tag.readMultiple (base + k) (min (cap / 4 - k) readMultipleBlocksMax)).filter
            (fun rx => decide (min (cap / 4 - k) readMultipleBlocksMax * t5UserBlockSize ≤ rx.length)) else none) with
      | none =>
          dsimp only
          cases hrx : (tag.readBlock (base + k)).filter
              (fun rx => decide (min (cap - 4 * k) t5UserBlockSize ≤ rx.length)) with
          | none =>
              refine ⟨_, rfl, Nat.le_of_lt hlt, Or.inr ⟨k, rfl⟩, fun _ m hall => ?_⟩
              by_contra hfew
              obtain ⟨rx, hread, hlen⟩ := hall (base + k) (Nat.le_add_right _ _) (by omega)
              have hshort := Option.filter_eq_none_iff.mp hrx rx hread
              rw [decide_eq_true_eq] at hshort
              exact absurd (Nat.le_trans (Nat.min_le_right _ _) hlen) hshort
          | some rx =>
              obtain ⟨hread, hlen⟩ := Option.filter_eq_some_iff.mp hrx
              rw [decide_eq_true_eq, t5UserBlockSize] at hlen
              have hcopied : bytesAt memory (4 * base) (4 * k) ++ rx.take (min (cap - 4 * k) t5UserBlockSize) =
                  bytesAt memory (4 * base) (min (4 * (k + 1)) cap) := by
                rw [t5UserBlockSize, (htag.readBlock _ rx hblock hread).take hlen (by omega), Nat.mul_add,
                  bytesAt_append]
                congr 1
                omega
              have hnext : (several || disabled) = true ∨ readMultipleBlocksMax ∣ k + 1 ∨ cap / 4 ≤ k + 1 := by
                cases disabled with
                | true => exact Or.inl (Bool.or_true _)
                | false =>
                    cases several with
                    | true => exact Or.inl rfl
                    | false =>
                        refine Or.inr (Or.inr ?_)
                        simp only [Bool.not_false, Bool.and_true, decide_eq_false_iff_not] at hseveral
                        omega
              dsimp only
              rw [hcopied, Nat.add_assoc]
              obtain ⟨n, hn, hle, hsteps, hfull⟩ := ih (several || disabled) (k + 1) (by omega)
                (fun h => by rw [hoff h, Bool.or_true]) hnext
              exact ⟨n, hn, hle, hsteps, fun hfuel => hfull (by omega)⟩
      | some rx =>
          have hon : several = true := by
            by_contra hno
            rw [if_neg hno] at hmulti
            exact absurd hmulti (by simp)
          rw [hon, if_pos rfl] at hmulti
          rw [hon, Bool.and_eq_true, decide_eq_true_eq, Bool.not_eq_true'] at hseveral
          obtain ⟨hfew, rfl⟩ := hseveral
          obtain ⟨hread, hlen⟩ := Option.filter_eq_some_iff.mp hmulti
          rw [decide_eq_true_eq] at hlen
          have hthird : readMultipleBlocksMax ∣ k := by
            rcases hstep with h | h | h
            · exact absurd h (by simp)
            · exact h
            · omega
          rw [readMultipleBlocksMax] at hthird
          have hcut := htag.readMultiple _ _ rx hblock (Nat.min_le_right _ _) hread
          have hoff' : off = false := by
            by_contra hno
            exact absurd (hoff (by simpa using hno)) (by simp)
          rw [readMultipleBlocksMax, t5UserBlockSize] at hlen
          have hinside : 4 * (base + k) + min (cap / 4 - k) 31 * 4 ≤ multipleEnd wide (base + k) := by
            rw [units] at hend
            rw [multipleEnd, blocksEnd, iso15693BlockAddr1ByteMax]
            split
            next => omega
            next hshort =>
              rw [not_or] at hshort
              rcases hcross with hw | ho | hno
              · exact absurd hw hshort.1
              · rw [hoff'] at ho
                exact absurd ho (by simp)
              · rw [CrossesOneByte, iso15693BlockAddr1ByteMax, t5UserBlockSize, readMultipleBlocksMax] at hno
                omega
          have hcopied : bytesAt memory (4 * base) (4 * k) ++ rx.take (min (cap / 4 - k) 31 * 4) =
              bytesAt memory (4 * base) (min (4 * (k + min (cap / 4 - k) 31)) cap) := by
            rw [hcut.take hlen hinside, Nat.mul_add, bytesAt_append]
            congr 1
            omega
          dsimp only
          rw [readMultipleBlocksMax, t5UserBlockSize, hcopied, Nat.add_assoc]
          obtain ⟨n, hn, hle, hsteps, hfull⟩ := ih false (k + min (cap / 4 - k) 31) (by omega)
            (fun h => by rw [hoff'] at h; exact absurd h (by simp)) (by rw [readMultipleBlocksMax]; omega)
          exact ⟨n, hn, hle, hsteps, fun hfuel => hfull (by omega)⟩

/-- A Type 5 read copies the memory's bytes, at least those of the blocks in front of the first failure. -/
theorem type5ReadBinary_bytes {tag : Type5Tag} {wide disabled : Bool} {block cap : Nat}
    (hend : block + units cap ≤ 0x10000) (htag : Type5Reads memory wide tag)
    (hcross : wide ∨ disabled ∨ ¬ CrossesOneByte block cap) :
    ∃ n, (type5ReadBinary tag disabled block cap).1 = bytesAt memory (4 * block) n ∧ n ≤ cap ∧ (n = cap ∨ 4 ∣ n) ∧
      ∀ m, NoStepFails tag.readBlock block m t5UserBlockSize → min (4 * m) cap ≤ n := by
  obtain ⟨n, hn, hle, hsteps, hfull⟩ :=
    type5ReadBinaryFrom_bytes htag hend hcross cap disabled 0 (by omega) id (Or.inr (Or.inl (Nat.dvd_zero _)))
  rw [Nat.add_zero, Nat.mul_zero, Nat.zero_min, bytesAt_zero] at hn
  exact ⟨n, hn, hle, hsteps, hfull (by omega)⟩

/-- **Type 5.** The read agrees with the reads one by one where no short READ MULTIPLE crosses block 255. -/
theorem type5ReadBinary_agrees {tag : Type5Tag} {wide disabled : Bool} {block cap : Nat} (hpos : 0 < cap)
    (hend : block + units cap ≤ 0x10000) (htag : Type5Reads memory wide tag)
    (hcross : wide ∨ disabled ∨ ¬ CrossesOneByte block cap) :
    ReadAgrees memory tag.readBlock t5UserBlockSize block cap (4 ∣ ·)
      (returned (type5ReadBinary tag disabled block cap).1) := by
  obtain ⟨n, hn, hle, hsteps, hfull⟩ := type5ReadBinary_bytes hend htag hcross
  have hread (u : Nat) (rx : Frame) (_ : block ≤ u) (hu : u < block + units cap) (hrx : tag.readBlock u = some rx) :
      CutFrom memory (4 * u) (4 * u + 4) rx := htag.readBlock u rx (by omega) hrx
  rw [hn]
  refine readAgrees_of_bytes (Nat.le_refl _) hpos hle hsteps hread fun hall => ?_
  have hall' := hfull (units cap) hall
  rw [units] at hall'
  omega

/-! ### A tag that loses count behind block 255 -/

/-- The memory as such a tag gives it out. -/
def losingCount (memory : Nat → Byte) : Nat → Byte := fun address =>
  if address < blocksEnd 8 then memory address else ~~~ memory address

/-- A front end with a tag that knows the short READ MULTIPLE only. -/
def shortMultipleOnly (memory : Nat → Byte) : Transceive := fun cmd =>
  if cmd.take 2 = [iso15693FlagsAddressed, iso15693CmdReadMultiple] then
    some (0 :: bytesAt (losingCount memory) (4 * (u8At cmd (cmd.length - 2)).toNat)
      (4 * ((u8At cmd (cmd.length - 1)).toNat + 1)))
  else none

theorem shortMultipleOnly_multiple (uid : Frame) (first countField : Byte) :
    shortMultipleOnly memory (readMultipleCommand uid first countField) =
      some (0 :: bytesAt (losingCount memory) (4 * first.toNat) (4 * (countField.toNat + 1))) := by
  have hlen : (readMultipleCommand uid first countField).length = 2 + uid.length + 2 := by
    simp only [readMultipleCommand, List.length_append, List.length_cons, List.length_nil, List.length_reverse]
  have htail (i : Nat) : u8At (readMultipleCommand uid first countField) (2 + uid.length + i) =
      u8At [first, countField] i := by
    rw [readMultipleCommand, u8At_append_right _ _ (by simp; omega)]
    congr 1
    simp only [List.length_append, List.length_cons, List.length_nil, List.length_reverse]
    omega
  have hhead : (readMultipleCommand uid first countField).take 2 =
    [iso15693FlagsAddressed, iso15693CmdReadMultiple] := rfl
  rw [shortMultipleOnly, if_pos hhead, hlen, show 2 + uid.length + 2 - 2 = 2 + uid.length + 0 by omega,
    show 2 + uid.length + 2 - 1 = 2 + uid.length + 1 by omega, htail, htail]
  rfl

/-- Its answers are right for every memory that the tag gives out right. -/
theorem shortMultipleOnly_answers (uid : Frame) {other : Nat → Byte} {wide : Bool}
    (hsame : ∀ address < blocksEnd (if wide then 16 else 8), losingCount memory address = other address) :
    Type5Answers other uid wide (shortMultipleOnly memory) := by
  refine ⟨fun block flags data h => ?_, fun block flags data h => ?_, fun first countField flags data h _ => ?_,
    fun first countField flags data h => ?_⟩
  · exact absurd h (by simp [shortMultipleOnly, readBlockCommand, iso15693CmdReadSingleBlock, iso15693CmdReadMultiple])
  · exact absurd h (by simp [shortMultipleOnly, extReadBlockCommand, iso15693FlagsAddressed,
      iso15693FlagProtocolExtension])
  · rw [shortMultipleOnly_multiple, Option.some.injEq, List.cons.injEq] at h
    intro i hi hlimit
    rw [← h.2, bytesAt_length] at hi
    rw [← h.2, u8At_bytesAt _ _ hi, hsame _ hlimit]
  · exact absurd h (by simp [shortMultipleOnly, extReadMultipleCommand, iso15693FlagsAddressed,
      iso15693FlagProtocolExtension])

theorem type5ReadBinaryFrom_extends (tag : Type5Tag) (cap : Nat) (fuel : Nat) (disabled : Bool) (block : Nat)
    (copied : Frame) : copied <+: (type5ReadBinaryFrom tag cap fuel disabled block copied).1 := by
  induction fuel generalizing disabled block copied with
  | zero => exact List.prefix_rfl
  | succ fuel ih =>
      rw [type5ReadBinaryFrom]
      split
      next =>
        dsimp only
        split
        next => exact (List.prefix_append _ _).trans (ih _ _ _)
        next =>
          split
          next => exact (List.prefix_append _ _).trans (ih _ _ _)
          next => exact List.prefix_rfl
      next => exact List.prefix_rfl

/-- Where several blocks are answered, the read goes on behind block 255. -/
theorem crossing_goes_on {tag : Type5Tag} {base cap : Nat} (hcross : CrossesOneByte base cap)
    (htag : ∀ first count, first ≤ 0xFF → 0 < count → count ≤ 31 →
      ∃ rx, tag.readMultiple first count = some rx ∧ rx.length = count * 4) :
    ∀ fuel k (copied : Frame), copied.length = 4 * k → 31 ∣ k → base + k ≤ 0xFF → 0x100 ≤ fuel + base + k →
      4 * (0x101 - base) ≤ (type5ReadBinaryFrom tag cap fuel false (base + k) copied).1.length := by
  obtain ⟨hbase, hpast, hmod⟩ := hcross
  rw [iso15693BlockAddr1ByteMax] at hbase
  rw [t5UserBlockSize] at hpast
  rw [readMultipleBlocksMax] at hmod
  intro fuel
  induction fuel with
  | zero =>
      intro k copied _ _ hk hfuel
      omega
  | succ fuel ih =>
      intro k copied hlen hthird hk hfuel
      have hfull : (cap - 4 * k) / t5UserBlockSize = cap / 4 - k := by
        rw [t5UserBlockSize]
        omega
      obtain ⟨rx, hrx, hrxLen⟩ := htag (base + k) (min (cap / 4 - k) 31) hk (by omega) (by omega)
      have hnext : (copied ++ rx.take (min (cap / 4 - k) 31 * 4)).length = 4 * (k + min (cap / 4 - k) 31) := by
        rw [List.length_append, List.length_take, hlen, hrxLen]
        omega
      rw [type5ReadBinaryFrom, hlen, if_pos (by omega), hfull]
      dsimp only
      rw [show (decide (1 < cap / 4 - k) && !false) = true by simp; omega, if_pos rfl, readMultipleBlocksMax, hrx,
        t5UserBlockSize, Option.filter_some_pos (by rw [hrxLen]; simp)]
      dsimp only
      rw [Nat.add_assoc]
      by_cases hin : base + (k + min (cap / 4 - k) 31) ≤ 0xFF
      · exact ih _ _ hnext (by omega) hin (by omega)
      · have hext := (type5ReadBinaryFrom_extends tag cap fuel false (base + (k + min (cap / 4 - k) 31))
          (copied ++ rx.take (min (cap / 4 - k) 31 * 4))).length_le
        omega

theorem shortMultipleOnly_multiple_read (uid : Frame) {first count : Nat} (hfirst : first ≤ 0xFF) (hpos : 0 < count)
    (hcount : count ≤ 31) :
    (Type5Tag.over (shortMultipleOnly memory) uid).readMultiple first count =
      some (bytesAt (losingCount memory) (4 * first) (count * 4)) := by
  have hword : (BitVec.ofNat 16 first).toNat = first := by
    rw [BitVec.toNat_ofNat, Nat.mod_eq_of_lt (by omega)]
  have hcountWord : (BitVec.ofNat 16 count).toNat = count := by
    rw [BitVec.toNat_ofNat, Nat.mod_eq_of_lt (by omega)]
  have hfield : (BitVec.ofNat 16 count - 1).toNat = count - 1 := by
    rw [BitVec.toNat_sub, hcountWord, show (1 : Word).toNat = 1 from rfl]
    omega
  have hne : ¬(BitVec.ofNat 16 count = 0 ∨ readMultipleBlocksMax < count) := by
    rintro (hz | hbig)
    · rw [hz, show (0 : Word).toNat = 0 from rfl] at hcountWord
      omega
    · rw [readMultipleBlocksMax] at hbig
      omega
  have hshort : ¬(iso15693BlockAddr1ByteMax < first ∨ iso15693BlockAddr1ByteMax < count - 1) := by
    rw [iso15693BlockAddr1ByteMax]
    omega
  have hfirstByte : ((BitVec.ofNat 16 first).setWidth 8).toNat = first := by
    rw [BitVec.toNat_setWidth, hword, Nat.mod_eq_of_lt (by omega)]
  have hfieldByte : ((BitVec.ofNat 16 count - 1).setWidth 8).toNat = count - 1 := by
    rw [BitVec.toNat_setWidth, hfield, Nat.mod_eq_of_lt (by omega)]
  change userReadMultiple _ uid (BitVec.ofNat 16 first) (BitVec.ofNat 16 count) (count * t5UserBlockSize) = _
  rw [userReadMultiple, hcountWord, hword, if_neg hne]
  dsimp only
  rw [hfield, if_neg (Nat.lt_irrefl _), if_neg hshort, shortMultipleOnly_multiple, hfirstByte, hfieldByte, answerData,
    Option.bind_some, if_neg, t5UserBlockSize, List.drop_succ_cons, List.drop_zero, List.take_of_length_le]
  · congr 2
    omega
  · rw [bytesAt_length]
    omega
  · rw [List.length_cons, bytesAt_length, t5UserBlockSize]
    rintro (hlen | hflag)
    · omega
    · exact hflag (by rw [u8At_cons_zero]; decide)

/-- **Type 5, the other way.** Where a short READ MULTIPLE crosses block 255, a tag that loses count there makes
the read return bytes that are not the memory's. -/
theorem crossing_disagrees (uid : Frame) {block cap : Nat} (hpos : 0 < cap) (hend : block + units cap ≤ 0x10000)
    (hcross : CrossesOneByte block cap) :
    ∃ transceive, Type5Answers memory uid false transceive ∧
      ¬ ReadAgrees memory (Type5Tag.over transceive uid).readBlock t5UserBlockSize block cap (4 ∣ ·)
        (returned (type5ReadBinary (.over transceive uid) false block cap).1) := by
  refine ⟨shortMultipleOnly memory, shortMultipleOnly_answers uid fun address h => if_pos h, fun hagree => ?_⟩
  have hblock : block ≤ 0xFF := hcross.1
  have hpast := hcross.2.1
  rw [t5UserBlockSize] at hpast
  -- The answers are those of a tag that goes on counting, over another memory.
  have hother : Type5Reads (losingCount memory) true (.over (shortMultipleOnly memory) uid) :=
    (shortMultipleOnly_answers uid fun _ _ => rfl).reads
  obtain ⟨n, hn, -, -, -⟩ :=
    @type5ReadBinaryFrom_bytes (losingCount memory) _ true false block cap hother hend (Or.inl rfl) cap false 0
      (by omega) (by simp) (Or.inr (Or.inl (Nat.dvd_zero _)))
  rw [Nat.add_zero, Nat.mul_zero, Nat.zero_min, bytesAt_zero] at hn
  have hlong : 4 * (0x101 - block) ≤ n := by
    have hrun := @crossing_goes_on (Type5Tag.over (shortMultipleOnly memory) uid) block cap hcross
      (fun first count hfirst hcountPos hcount => ⟨_, shortMultipleOnly_multiple_read uid hfirst hcountPos hcount,
        bytesAt_length _ _ _⟩) cap 0 [] rfl (Nat.dvd_zero _) hblock (by omega)
    rwa [Nat.add_zero, hn, bytesAt_length] at hrun
  have hbytes := (hagree.bytes (bytesAt (losingCount memory) (4 * block) n) (by
    rw [type5ReadBinary, hn, returned, bytesAt_length, if_neg (by omega)])).2
  rw [bytesAt_length] at hbytes
  have hlast := congrArg (u8At · (4 * (0x100 - block))) hbytes
  rw [u8At_bytesAt _ _ (by omega), u8At_bytesAt _ _ (by omega), losingCount, if_neg (by rw [blocksEnd]; omega)] at hlast
  have hnot : ∀ b : Byte, ~~~b ≠ b := by decide
  exact hnot _ hlast

/-! ### Both reads -/

end Reads

/-- **Fast and slow reads.** Over a span that its check admits, and whatever the tag refuses, cuts short or fails, a
Type 2 read fails or returns the memory's bytes in whole steps. A Type 5 read does so with every tag exactly when no
short READ MULTIPLE crosses block 255, the tag goes on counting there, or the reader has given READ MULTIPLE up. -/
theorem fast_read_agrees_iff (memory : Nat → Byte) :
    (∀ (dataAreaSize page len : Word) (transceive : Transceive) (family : Type2Family)
        (maxUserPage : Nat) (fastReadAllowed : Bool), type2ReadSpanOk dataAreaSize page len = true →
      Type2Answers memory (4 * (page.toNat + units len.toNat)) transceive →
        ReadAgrees memory (Type2Tag.over transceive family maxUserPage).read t2tReadRespBytes page.toNat len.toNat
          (WholeType2Steps len.toNat)
          (returned (type2ReadBinary (.over transceive family maxUserPage) fastReadAllowed page.toNat len.toNat).1)) ∧
    ∀ (uid : Frame) (wide disabled : Bool) (ccBytes dataAreaSize : Word) (blockSize : Byte)
        (blockCount block len : Word), type5ReadSpanOk ccBytes dataAreaSize blockSize blockCount block len = true →
      ((∀ transceive, Type5Answers memory uid wide transceive →
          ReadAgrees memory (Type5Tag.over transceive uid).readBlock t5UserBlockSize block.toNat len.toNat (4 ∣ ·)
            (returned (type5ReadBinary (.over transceive uid) disabled block.toNat len.toNat).1)) ↔
        wide ∨ disabled ∨ ¬ CrossesOneByte block.toNat len.toNat) := by
  refine ⟨fun dataAreaSize page len transceive family maxUserPage fastReadAllowed hspan htag => ?_,
    fun uid wide disabled ccBytes dataAreaSize blockSize blockCount block len hspan => ?_⟩
  · obtain ⟨hpos, -, -, hmax⟩ := type2ReadSpanOk_spec hspan
    refine type2ReadBinary_agrees hpos ?_ (htag.reads family maxUserPage) fastReadAllowed
    rw [units]
    omega
  · have hpos := (type5ReadSpanOk_spec hspan).1
    have hend : block.toNat + units len.toNat ≤ 0x10000 := by
      have := type5ReadSpanOk_word hspan
      rw [units]
      omega
    constructor
    · intro hall
      cases wide with
      | true => exact Or.inl rfl
      | false =>
          cases disabled with
          | true => exact Or.inr (Or.inl rfl)
          | false =>
              refine Or.inr (Or.inr fun hcross => ?_)
              obtain ⟨transceive, htag, hno⟩ := @crossing_disagrees memory uid block.toNat len.toNat hpos hend hcross
              exact hno (hall transceive htag)
    · intro hcross transceive htag
      exact type5ReadBinary_agrees hpos hend htag.reads hcross

/-- A memory whose bytes are their addresses. -/
def counting (address : Nat) : Byte := BitVec.ofNat 8 address

theorem fast_read_agrees_iff_somewhere :
    (ReadAgrees counting (Type2Tag.over (pageReads counting) .ntag21x 39).read t2tReadRespBytes 4 18
      (WholeType2Steps 18)
        (returned (type2ReadBinary (.over (pageReads counting) .ntag21x 39) true 4 18).1) ∧
      returned (type2ReadBinary (.over (pageReads counting) .ntag21x 39) true 4 18).1 = some (bytesAt counting 16 18)) ∧
    ∀ transceive, Type5Answers counting [] true transceive →
      ReadAgrees counting (Type5Tag.over transceive []).readBlock t5UserBlockSize 255 8 (4 ∣ ·)
        (returned (type5ReadBinary (.over transceive []) false 255 8).1) :=
  ⟨⟨(fast_read_agrees_iff counting).1 144 4 18 (pageReads counting) .ntag21x 39 true (by decide)
      (pageReads_answers counting _), by decide⟩,
    ((fast_read_agrees_iff counting).2 [] true false 8 2040 4 512 255 8 (by decide)).mpr (Or.inl rfl)⟩

/-- Blocks 255 and 256 in one short READ MULTIPLE: the second block is not the memory's. -/
theorem block_255_misread :
    type5ReadSpanOk 8 2040 4 512 255 8 = true ∧
      Type5Answers (fun _ => 0) [0xE0, 0x02, 0, 0, 0, 0, 0, 1] false (shortMultipleOnly fun _ => 0) ∧
      ¬ ReadAgrees (fun _ => 0) (Type5Tag.over (shortMultipleOnly fun _ => 0) [0xE0, 0x02, 0, 0, 0, 0, 0, 1]).readBlock
        t5UserBlockSize 255 8 (4 ∣ ·)
        (returned (type5ReadBinary (.over (shortMultipleOnly fun _ => 0) [0xE0, 0x02, 0, 0, 0, 0, 0, 1])
          false 255 8).1) := by
  refine ⟨by decide, shortMultipleOnly_answers _ fun address h => if_pos h, fun hagree => ?_⟩
  have hbytes := (hagree.bytes [0, 0, 0, 0, 0xFF, 0xFF, 0xFF, 0xFF] (by decide)).2
  exact absurd hbytes (by decide)

end NeroReader.Tags
