import NeroReader.HostStorage

/-!
When the host's reading of a storage tag is faithful: a message that the declared area holds within the
scan limits is returned, and the tag is called empty only when the walk of the declared area comes to its
end without one. The reads are described by the number of bytes behind each of them; what the loops do
with them is the same for Type 2 and Type 5.
-/

namespace NeroReader.HostStorage

open Ndef Storage Tags

/-- The walk of an area comes to a terminator or to the end of the area. -/
def WalksToEnd (area : Frame) : Prop :=
  Tlv.find tlvMessage area = .terminated ∨ Tlv.find tlvMessage area = .exhausted

section Reads

variable (memory : Nat → Byte) (base start total : Nat) (ends : Nat → Nat)

/-- The part of the data area that `k` reads have brought. -/
def areaRead (k : Nat) : Frame := bytesAt memory (base + start) (ends k - start)

def scanAt (k : Nat) : Option Result := scanRaw (bytesAt memory base (ends k)) start total

/-- A read that ends between two TLVs with a byte `0xFE` among the bytes read: the host takes it for the
end of the area. -/
def FalseEnd (k : Nat) : Prop :=
  Tlv.Foreign tlvMessage (areaRead memory base start ends k) ∧ tlvTerminator ∈ areaRead memory base start ends k

/-- The reads of a loop: each brings more until `bound` bytes are there. -/
structure Reads (bound : Nat) : Prop where
  mono : Monotone ends
  grows : ∀ k, ends k < bound → ends k < ends (k + 1)
  start_le : ends 0 ≤ start
  le_total : ∀ k, ends k ≤ total
  bound_le : bound ≤ total
  range : total ≤ 0xFFFF

/-- The loop ends with the first verdict, or fails when the reads are used up. -/
structure Concludes (bound : Nat) (result : Result) : Prop where
  verdict : ∀ k r, ends k < bound → (∀ j < k, scanAt memory base start total ends (j + 1) = none) →
    scanAt memory base start total ends (k + 1) = some r → result = r
  failure : (∀ k, ends k < bound → scanAt memory base start total ends (k + 1) = none) →
    ∃ err, result = .failed err

/-- The host does what it should with a tag. -/
def Faithful (limit size : Nat) (result : Result) : Prop :=
  (∀ before field m, Holds memory (base + start) limit before field m → result = .message m) ∧
  (result = .empty → WalksToEnd (bytesAt memory (base + start) size))

variable {memory base start total ends} {bound : Nat}

theorem scanAt_eq (h : Reads start total ends bound) (k : Nat) :
    scanAt memory base start total ends k =
      if ends k ≤ start then none
      else
        match Tlv.find tlvMessage (areaRead memory base start ends k) with
        | .value v => some (.message v)
        | .terminated => some .empty
        | .exhausted =>
            if tlvTerminator ∈ areaRead memory base start ends k ∨ total ≤ ends k then some .empty else none
        | .truncated => none := by
  have hlen : (bytesAt memory base (ends k)).length ≤ 0xFFFF := by
    rw [bytesAt_length]
    exact (h.le_total k).trans h.range
  rw [scanAt, scanRaw, bytesAt_length]
  by_cases hstart : ends k ≤ start
  · rw [if_pos hstart, if_pos hstart]
  rw [if_neg hstart, if_neg hstart]
  have harea : (bytesAt memory base (ends k)).drop start = areaRead memory base start ends k := bytesAt_drop _ _ _ _
  have hspec := findMessageTlv_spec hlen (show start ≤ (bytesAt memory base (ends k)).length by
    rw [bytesAt_length]
    omega)
  rw [harea] at hspec
  have hterm : tlvAreaHasTerminator (bytesAt memory base (ends k)) start =
      decide (tlvTerminator ∈ areaRead memory base start ends k) := by
    rw [tlvAreaHasTerminator, bytesAt_length, if_neg hstart, harea]
  simp only [hterm]
  revert hspec
  generalize hfind : Tlv.find tlvMessage (areaRead memory base start ends k) = found
  generalize findMessageTlv (bytesAt memory base (ends k)) start = result
  intro hspec
  cases hspec with
  | value htype hfits => rfl
  | terminated =>
      have hmem : tlvTerminator ∈ areaRead memory base start ends k := Tlv.mem_of_terminated hfind
      simp only [decide_eq_true hmem, Bool.true_or, if_true]
  | exhausted => simp only [Bool.or_eq_true, decide_eq_true_eq]
  | truncated => rfl

/-- A search settled behind some read stays settled in whatever covers the bytes of that read. -/
theorem find_of_areaRead {k n : Nat} (hfinal : (Tlv.find tlvMessage (areaRead memory base start ends k)).Final)
    (hn : ends k - start ≤ n) :
    Tlv.find tlvMessage (bytesAt memory (base + start) n) =
      Tlv.find tlvMessage (areaRead memory base start ends k) := by
  rw [areaRead] at hfinal ⊢
  rw [← Nat.add_sub_cancel' hn, ← bytesAt_append]
  exact Tlv.find_append _ _ hfinal

/-- What the first verdict of a loop can be. -/
theorem scanAt_cases (h : Reads start total ends bound) {k : Nat} {r : Result}
    (hscan : scanAt memory base start total ends k = some r) :
    (∃ v, r = .message v ∧ Tlv.find tlvMessage (areaRead memory base start ends k) = .value v) ∨
    (r = .empty ∧ Tlv.find tlvMessage (areaRead memory base start ends k) = .terminated) ∨
    (r = .empty ∧ Tlv.find tlvMessage (areaRead memory base start ends k) = .exhausted ∧
      (tlvTerminator ∈ areaRead memory base start ends k ∨ ends k = total)) := by
  rw [scanAt_eq h] at hscan
  split at hscan
  · cases hscan
  cases hfind : Tlv.find tlvMessage (areaRead memory base start ends k) with
  | value v =>
      rw [hfind] at hscan
      cases hscan
      exact Or.inl ⟨v, rfl, rfl⟩
  | terminated =>
      rw [hfind] at hscan
      cases hscan
      exact Or.inr (Or.inl ⟨rfl, rfl⟩)
  | exhausted =>
      rw [hfind] at hscan
      simp only [Option.ite_none_right_eq_some, Option.some.injEq] at hscan
      obtain ⟨hreason, rfl⟩ := hscan
      exact Or.inr (Or.inr ⟨rfl, rfl, hreason.imp_right (Nat.le_antisymm (h.le_total k))⟩)
  | truncated =>
      rw [hfind] at hscan
      cases hscan

/-- A verdict behind some read means a first verdict, behind that read or an earlier one. -/
theorem Concludes.of_verdict {result : Result} (h : Reads start total ends bound)
    (hconcludes : Concludes memory base start total ends bound result) {k : Nat} (hk : ends k < bound)
    (hscan : scanAt memory base start total ends (k + 1) ≠ none) :
    ∃ n ≤ k, scanAt memory base start total ends (n + 1) = some result := by
  classical
  have hex : ∃ n, scanAt memory base start total ends (n + 1) ≠ none := ⟨k, hscan⟩
  have hle : Nat.find hex ≤ k := Nat.find_min' hex hscan
  obtain ⟨r, hr⟩ := Option.ne_none_iff_exists'.mp (Nat.find_spec hex)
  have hresult := hconcludes.verdict (Nat.find hex) r ((h.mono hle).trans_lt hk)
    (fun j hj => not_not.mp (Nat.find_min hex hj)) hr
  exact ⟨Nat.find hex, hle, by rw [hr, hresult]⟩

/-- The result is a verdict, or the loop failed. -/
theorem Concludes.cases {result : Result} (h : Reads start total ends bound)
    (hconcludes : Concludes memory base start total ends bound result) :
    (∃ n, ends n < bound ∧ scanAt memory base start total ends (n + 1) = some result) ∨
    ∃ err, result = .failed err := by
  by_cases hex : ∃ k, ends k < bound ∧ scanAt memory base start total ends (k + 1) ≠ none
  · obtain ⟨k, hk, hscan⟩ := hex
    obtain ⟨n, hn, hr⟩ := hconcludes.of_verdict h hk hscan
    exact Or.inl ⟨n, (h.mono hn).trans_lt hk, hr⟩
  · refine Or.inr (hconcludes.failure fun k hk => ?_)
    by_contra hscan
    exact hex ⟨k, hk, hscan⟩

/-- The reads reach every length up to the bound. -/
theorem Reads.reaches (h : Reads start total ends bound) {n : Nat} (hn : n ≤ bound) (hpos : ends 0 < n) :
    ∃ k, ends k < n ∧ n ≤ ends (k + 1) := by
  have hgrow : ∀ k, n ≤ ends k ∨ k ≤ ends k := by
    intro k
    induction k with
    | zero => exact Or.inr (Nat.zero_le _)
    | succ k ih =>
        by_cases hdone : n ≤ ends (k + 1)
        · exact Or.inl hdone
        · have hle : ends k ≤ ends (k + 1) := h.mono (Nat.le_succ k)
          have hstep := h.grows k (by omega)
          right
          omega
  have hex : ∃ k, n ≤ ends k := ⟨n, (hgrow n).elim id id⟩
  have hne : Nat.find hex ≠ 0 := by
    intro hzero
    have hspec := Nat.find_spec hex
    rw [hzero] at hspec
    omega
  obtain ⟨k, hk⟩ := Nat.exists_eq_succ_of_ne_zero hne
  refine ⟨k, Nat.lt_of_not_le (Nat.find_min hex (hk ▸ Nat.lt_succ_self k)), ?_⟩
  rw [← Nat.succ_eq_add_one, ← hk]
  exact Nat.find_spec hex

/-- **When a loop is faithful.** Either the declared area ends without a message, or no read comes to a
false end and the bytes the loop may look at do not end without a message either. -/
theorem faithful_iff {limit size : Nat} {result : Result} (h : Reads start total ends bound)
    (hconcludes : Concludes memory base start total ends bound result) (hlimit : start + limit ≤ bound)
    (hlimitSize : limit ≤ size) (hsize : size ≤ total - start) (hfull : bound = total ∨ size = total - start) :
    Faithful memory base start limit size result ↔
      WalksToEnd (bytesAt memory (base + start) size) ∨
        (∀ k, ends k < bound → ¬ FalseEnd memory base start ends (k + 1)) ∧
          ¬ WalksToEnd (bytesAt memory (base + start) (total - start)) := by
  have hcovers : ∀ k, ends k - start ≤ total - start := fun k => Nat.sub_le_sub_right (h.le_total k) start
  constructor
  · rintro ⟨hmessage, hempty⟩
    by_contra hcond
    rw [not_or] at hcond
    obtain ⟨hopen, hcond⟩ := hcond
    -- every way to break the condition makes the loop call the tag empty
    have hnotEmpty : result ≠ .empty := fun hresult => hopen (hempty hresult)
    have hfinal : ∀ k n, n ≤ k → Tlv.Foreign tlvMessage (areaRead memory base start ends (k + 1)) →
        ¬ (Tlv.find tlvMessage (areaRead memory base start ends (n + 1))).Final := by
      intro k n hn hforeign hfin
      have hsame := find_of_areaRead hfin (Nat.sub_le_sub_right (h.mono (Nat.succ_le_succ hn)) start)
      rw [← areaRead, (Tlv.find_eq_exhausted_iff _).mpr hforeign] at hsame
      rw [← hsame] at hfin
      exact hfin
    refine hcond ⟨?_, ?_⟩
    · rintro k hk ⟨hforeign, hterm⟩
      have hstart : ¬ ends (k + 1) ≤ start := by
        intro hle
        rw [areaRead, Nat.sub_eq_zero_of_le hle, bytesAt_zero] at hterm
        exact List.not_mem_nil hterm
      have hscan : scanAt memory base start total ends (k + 1) = some .empty := by
        rw [scanAt_eq h, if_neg hstart, (Tlv.find_eq_exhausted_iff _).mpr hforeign]
        exact if_pos (Or.inl hterm)
      obtain ⟨n, hn, hresult⟩ := hconcludes.of_verdict h hk (by rw [hscan]; exact Option.some_ne_none _)
      have hcut := hfinal k n hn hforeign
      rcases scanAt_cases h hresult with ⟨v, rfl, hfind⟩ | ⟨rfl, hfind⟩ | ⟨rfl, hfind, -⟩
      · rw [hfind] at hcut
        exact hcut trivial
      · exact hnotEmpty rfl
      · exact hnotEmpty rfl
    · intro hwalk
      rcases hfull with hbound | heq
      swap
      · rw [heq] at hopen
        exact hopen hwalk
      by_cases hnone : total ≤ start
      · rw [Nat.sub_eq_zero_of_le hnone, Nat.le_zero] at hsize
        rw [hsize] at hopen
        exact hopen (Or.inr (Tlv.find_of_finished rfl))
      obtain ⟨k, hk, hreach⟩ := h.reaches (Nat.le_of_eq hbound.symm) (h.start_le.trans_lt (Nat.lt_of_not_le hnone))
      have hlast : ends (k + 1) = total := Nat.le_antisymm (h.le_total _) hreach
      have harea : areaRead memory base start ends (k + 1) = bytesAt memory (base + start) (total - start) := by
        rw [areaRead, hlast]
      have hscan : scanAt memory base start total ends (k + 1) = some .empty := by
        rw [scanAt_eq h, if_neg (by rw [hlast]; exact hnone), harea]
        rcases hwalk with hfind | hfind
        · rw [hfind]
        · rw [hfind]
          exact if_pos (Or.inr (Nat.le_of_eq hlast.symm))
      obtain ⟨n, hn, hresult⟩ := hconcludes.of_verdict h (hbound ▸ hk) (by rw [hscan]; exact Option.some_ne_none _)
      rcases scanAt_cases h hresult with ⟨v, rfl, hfind⟩ | ⟨rfl, -⟩ | ⟨rfl, -⟩
      · have hsame := find_of_areaRead (by rw [hfind]; trivial) (hcovers (n + 1))
        rw [hfind] at hsame
        rcases hwalk with hwalk | hwalk <;> rw [hwalk] at hsame <;> cases hsame
      · exact hnotEmpty rfl
      · exact hnotEmpty rfl
  · intro hcond
    have hgenuine : ∀ n, ends n < bound → scanAt memory base start total ends (n + 1) = some .empty →
        WalksToEnd (bytesAt memory (base + start) size) := by
      intro n hn hscan
      rcases hcond with hwalk | ⟨hclean, hopen⟩
      · exact hwalk
      rcases scanAt_cases h hscan with ⟨v, hv, -⟩ | ⟨-, hfind⟩ | ⟨-, hfind, hreason⟩
      · cases hv
      · have hsame := find_of_areaRead (by rw [hfind]; trivial) (hcovers (n + 1))
        exact absurd (Or.inl (hsame.trans hfind)) hopen
      · rcases hreason with hterm | hlast
        · exact absurd ⟨(Tlv.find_eq_exhausted_iff _).mp hfind, hterm⟩ (hclean n hn)
        · rw [areaRead, hlast] at hfind
          exact absurd (Or.inr hfind) hopen
    refine ⟨fun before field m hholds => ?_, fun hresult => ?_⟩
    · have hfits := hholds.fits
      have hnonempty : 0 < (before ++ (tlvMessage :: field ++ m)).length := by
        simp only [List.length_append, List.length_cons]
        omega
      have hvalue := hholds.find (hfits.trans hlimitSize)
      obtain ⟨k, hk, hreach⟩ := h.reaches (n := start + (before ++ (tlvMessage :: field ++ m)).length) (by omega)
        (h.start_le.trans_lt (by omega))
      have hscan : scanAt memory base start total ends (k + 1) = some (.message m) := by
        rw [scanAt_eq h, if_neg (by omega), areaRead, hholds.find (by omega)]
      obtain ⟨n, hn, hresult⟩ :=
        hconcludes.of_verdict h (k := k) (by omega) (by rw [hscan]; exact Option.some_ne_none _)
      have hnk := (h.mono hn).trans_lt hk
      rcases scanAt_cases h hresult with ⟨v, rfl, hfind⟩ | ⟨rfl, -⟩ | ⟨rfl, -⟩
      · have hlater : ends (n + 1) - start ≤ ends (k + 1) - start :=
          Nat.sub_le_sub_right (h.mono (Nat.succ_le_succ hn)) start
        have hsame := find_of_areaRead (by rw [hfind]; trivial) hlater
        rw [hholds.find (by omega), hfind] at hsame
        cases hsame
        rfl
      · have hwalk := hgenuine n (hnk.trans_le (by omega)) hresult
        rw [WalksToEnd, hvalue] at hwalk
        rcases hwalk with hwalk | hwalk <;> cases hwalk
      · have hwalk := hgenuine n (hnk.trans_le (by omega)) hresult
        rw [WalksToEnd, hvalue] at hwalk
        rcases hwalk with hwalk | hwalk <;> cases hwalk
    · rcases hconcludes.cases h with ⟨n, hn, hscan⟩ | ⟨err, herr⟩
      · rw [hresult] at hscan
        exact hgenuine n hn hscan
      · rw [hresult] at herr
        cases herr

/-- A loop with enough rounds that looks at what it has after each read. -/
theorem concludes_of_rounds (h : Reads start total ends bound) (loop : Nat → Nat → Result) {err : String}
    (hround : ∀ fuel k, ends k < bound → (∀ j < k, scanAt memory base start total ends (j + 1) = none) →
      loop (fuel + 1) k =
        match scanAt memory base start total ends (k + 1) with
        | some r => r
        | none => loop fuel (k + 1))
    (hend : ∀ fuel k, bound ≤ ends k → loop fuel k = .failed err) (rounds : Nat) (hrounds : bound ≤ ends rounds) :
    Concludes memory base start total ends bound (loop rounds 0) := by
  have hskip : ∀ k, (∀ j < k, ends j < bound ∧ scanAt memory base start total ends (j + 1) = none) → k ≤ rounds →
      loop rounds 0 = loop (rounds - k) k := by
    intro k
    induction k with
    | zero => exact fun _ _ => rfl
    | succ k ih =>
        intro hnone hk
        obtain ⟨hbefore, hscan⟩ := hnone k (Nat.lt_succ_self k)
        have hearlier := fun j hj => hnone j (Nat.lt_trans hj (Nat.lt_succ_self k))
        rw [ih hearlier (by omega), show rounds - k = rounds - (k + 1) + 1 by omega,
          hround _ k hbefore fun j hj => (hearlier j hj).2, hscan]
  have hearly : ∀ {k}, ends k < bound → k < rounds := by
    intro k hk
    by_contra hlate
    exact absurd (hrounds.trans (h.mono (Nat.le_of_not_lt hlate))) (Nat.not_le.mpr hk)
  refine ⟨fun k r hk hnone hscan => ?_, fun hnone => ⟨err, ?_⟩⟩
  · have hlt := hearly hk
    rw [hskip k (fun j hj => ⟨(h.mono (Nat.le_of_lt hj)).trans_lt hk, hnone j hj⟩) (Nat.le_of_lt hlt),
      show rounds - k = rounds - (k + 1) + 1 by omega, hround _ k hk hnone, hscan]
  · classical
    have hex : ∃ k, bound ≤ ends k := ⟨rounds, hrounds⟩
    have hbefore : ∀ j < Nat.find hex, ends j < bound := fun j hj => Nat.lt_of_not_le (Nat.find_min hex hj)
    rw [hskip (Nat.find hex) (fun j hj => ⟨hbefore j hj, hnone j (hbefore j hj)⟩) (Nat.find_min' hex hrounds)]
    exact hend _ _ (Nat.find_spec hex)

end Reads

/-! ### Type 2 -/

/-- A card that answers from a memory, with as many bytes as the pattern says. -/
def StorageCard.holding (memory : Nat → Byte) (pattern : Nat → Nat → Nat) : StorageCard where
  readBinary unit len := .ok (bytesAt memory (4 * unit) (pattern unit len))

/-- The bytes behind `k` reads of the Type 2 loop, the container among them, where each read goes on from the end of
the one before it. -/
def type2Ends (pattern : Nat → Nat → Nat) (total : Nat) : Nat → Nat
  | 0 => 4
  | k + 1 =>
      let want := min t2tReadRespBytes (total - type2Ends pattern total k)
      type2Ends pattern total k + min (pattern (3 + type2Ends pattern total k / 4) want) want

/-- A read that the walk does not settle ends with a whole unit, unless it is the last one. -/
def WholeUnits (memory : Nat → Byte) (pattern : Nat → Nat → Nat) (total units : Nat) : Prop :=
  ∀ k, type2Ends pattern total (k + 1) < 4 * units →
    ¬ (Tlv.find tlvMessage (areaRead memory 12 4 (type2Ends pattern total) (k + 1))).Final →
    4 ∣ type2Ends pattern total (k + 1)

section Type2

variable {memory : Nat → Byte} {pattern : Nat → Nat → Nat} {total units : Nat}

theorem type2Ends_spec (hmin : 4 ≤ total) (k : Nat) :
    4 ≤ type2Ends pattern total k ∧ type2Ends pattern total k ≤ total := by
  induction k with
  | zero => exact ⟨Nat.le_refl 4, hmin⟩
  | succ k ih =>
      rw [type2Ends]
      omega

/-- Each read brings a unit, or what is left. -/
theorem type2Ends_grows (hmin : 4 ≤ total) (hpattern : ∀ unit len, 4 ≤ pattern unit len) (k : Nat) :
    min (type2Ends pattern total k + 4) total ≤ type2Ends pattern total (k + 1) := by
  have hspec : 4 ≤ type2Ends pattern total k ∧ type2Ends pattern total k ≤ total := type2Ends_spec hmin k
  have hp := hpattern (3 + type2Ends pattern total k / 4) (min t2tReadRespBytes (total - type2Ends pattern total k))
  rw [type2Ends]
  generalize pattern (3 + type2Ends pattern total k / 4)
    (min t2tReadRespBytes (total - type2Ends pattern total k)) = p at hp ⊢
  rw [t2tReadRespBytes]
  omega

theorem type2Ends_rounds (hmin : 4 ≤ total) (hpattern : ∀ unit len, 4 ≤ pattern unit len) (k : Nat) :
    min (4 * k) total ≤ type2Ends pattern total k := by
  induction k with
  | zero => omega
  | succ k ih =>
      have hstep := type2Ends_grows hmin hpattern k
      omega

/-- Reads of whole units end with whole units. -/
theorem type2Ends_dvd (htotal : 4 ∣ total) (hwhole : ∀ unit len, 4 ∣ pattern unit len) (k : Nat) :
    4 ∣ type2Ends pattern total k := by
  induction k with
  | zero => exact Nat.dvd_refl 4
  | succ k ih =>
      have hp := hwhole (3 + type2Ends pattern total k / 4) (min t2tReadRespBytes (total - type2Ends pattern total k))
      rw [type2Ends]
      generalize pattern (3 + type2Ends pattern total k / 4)
        (min t2tReadRespBytes (total - type2Ends pattern total k)) = p at hp ⊢
      rw [t2tReadRespBytes]
      omega

theorem type2_reads (hmin : 4 ≤ total) (hrange : total ≤ 0xFFFF) (hpattern : ∀ unit len, 4 ≤ pattern unit len)
    (hunits : 4 * units ≤ total) : Reads 4 total (type2Ends pattern total) (4 * units) where
  mono := monotone_nat_of_le_succ fun k => by
    rw [type2Ends]
    exact Nat.le_add_right _ _
  grows k hk := by
    have hstep := type2Ends_grows hmin hpattern k
    omega
  start_le := Nat.le_refl 4
  le_total k := (type2Ends_spec hmin k).2
  bound_le := hunits
  range := hrange

/-- What is not settled by the look behind a read is not settled by the walk. -/
theorem WholeUnits.dvd (hwhole : WholeUnits memory pattern total units) (hmin : 4 ≤ total) (hrange : total ≤ 0xFFFF)
    (hpattern : ∀ unit len, 4 ≤ pattern unit len) (hunits : 4 * units ≤ total) {k : Nat}
    (hk : type2Ends pattern total k < 4 * units)
    (hnone : ∀ j < k, scanAt memory 12 4 total (type2Ends pattern total) (j + 1) = none) :
    4 ∣ type2Ends pattern total k := by
  cases k with
  | zero => exact Nat.dvd_refl 4
  | succ k =>
      refine hwhole k hk fun hfinal => ?_
      have hscan := hnone k (Nat.lt_succ_self k)
      rw [scanAt_eq (type2_reads hmin hrange hpattern hunits)] at hscan
      split at hscan
      · rename_i hstart
        rw [areaRead, Nat.sub_eq_zero_of_le hstart, bytesAt_zero, Tlv.find_of_finished rfl] at hfinal
        exact hfinal
      · cases hfind : Tlv.find tlvMessage (areaRead memory 12 4 (type2Ends pattern total) (k + 1)) with
        | value v => rw [hfind] at hscan; cases hscan
        | terminated => rw [hfind] at hscan; cases hscan
        | exhausted => rw [hfind] at hfinal; exact hfinal
        | truncated => rw [hfind] at hfinal; exact hfinal

theorem ceilUnitsU16_four {n : Nat} (h : n ≤ 0xFFFF) : ceilUnitsU16 n 4 = some ((n + 3) / 4) := by
  rw [ceilUnitsU16, show (BitVec.ofNat 8 4) = (4 : Byte) from rfl, ceilUnits_four, Option.map_some, BitVec.toNat_ofNat,
    BitVec.toNat_ofNat, Nat.mod_eq_of_lt (show n < 2 ^ 16 by omega)]
  exact congrArg some (Nat.mod_eq_of_lt (by omega))

/-- One round of the Type 2 loop, behind reads of whole units. -/
theorem readStorageFrom_round (hpattern : ∀ unit len, 4 ≤ pattern unit len)
    (hunits : 4 * units ≤ total) (fuel k : Nat) (hk : type2Ends pattern total k < 4 * units)
    (hdvd : 4 ∣ type2Ends pattern total k) :
    readStorageFrom (.holding memory pattern) 3 4 4 total units (fuel + 1) ((type2Ends pattern total k + 3) / 4)
        (bytesAt memory 12 (type2Ends pattern total k)) =
      match scanAt memory 12 4 total (type2Ends pattern total) (k + 1) with
      | some r => r
      | none =>
          readStorageFrom (.holding memory pattern) 3 4 4 total units fuel ((type2Ends pattern total (k + 1) + 3) / 4)
            (bytesAt memory 12 (type2Ends pattern total (k + 1))) := by
  have hat : (type2Ends pattern total k + 3) / 4 = type2Ends pattern total k / 4 := by omega
  have hp := hpattern (3 + type2Ends pattern total k / 4) (min t2tReadRespBytes (total - type2Ends pattern total k))
  have hnext : type2Ends pattern total (k + 1) = type2Ends pattern total k +
      min (pattern (3 + type2Ends pattern total k / 4) (min t2tReadRespBytes (total - type2Ends pattern total k)))
        (min t2tReadRespBytes (total - type2Ends pattern total k)) := rfl
  rw [hat, readStorageFrom, if_pos (show type2Ends pattern total k / 4 < units by omega)]
  simp only [bytesAt_length,
    show (decide (3 = type2CcPage) && decide (4 = type2UnitSize.toNat)) = true from rfl, if_true,
    show ∀ unit len, (StorageCard.holding memory pattern).readBinary unit len =
      .ok (bytesAt memory (4 * unit) (pattern unit len)) from fun _ _ => rfl]
  generalize pattern (3 + type2Ends pattern total k / 4) (min t2tReadRespBytes (total - type2Ends pattern total k)) = p
    at hp hnext
  generalize hcopied : min p (min t2tReadRespBytes (total - type2Ends pattern total k)) = copied at hnext
  rw [t2tReadRespBytes] at hcopied
  have hcopiedUnits : 0 < copied ∧ copied ≤ 16 ∧ copied ≤ p := by omega
  have hraw : bytesAt memory 12 (type2Ends pattern total k) ++
      (bytesAt memory (4 * (3 + type2Ends pattern total k / 4)) p).take copied =
      bytesAt memory 12 (type2Ends pattern total (k + 1)) := by
    rw [bytesAt_take _ _ hcopiedUnits.2.2,
      show 4 * (3 + type2Ends pattern total k / 4) = 12 + type2Ends pattern total k by
      omega, bytesAt_append, hnext]
  have haccepted : ¬ (copied = 0 ∨ (true = false ∧
      copied < min t2tReadRespBytes (total - type2Ends pattern total k))) := by
    rintro (hzero | ⟨hfalse, -⟩)
    · omega
    · cases hfalse
  rw [if_neg haccepted, ceilUnitsU16_four (by omega), hraw]
  obtain ⟨q, hq⟩ : ∃ q, (copied + 3) / 4 = q + 1 := ⟨(copied + 3) / 4 - 1, by omega⟩
  have hindex : type2Ends pattern total k / 4 + (q + 1) = (type2Ends pattern total (k + 1) + 3) / 4 := by omega
  rw [hq]
  simp only [hindex]
  rfl

theorem readStorageFrom_concludes (hmin : 4 ≤ total) (hrange : total ≤ 0xFFFF)
    (hpattern : ∀ unit len, 4 ≤ pattern unit len) (hunits : 4 * units ≤ total)
    (hwhole : WholeUnits memory pattern total units) :
    Concludes memory 12 4 total (type2Ends pattern total) (4 * units)
      (readStorageFrom (.holding memory pattern) 3 4 4 total units units 1 (bytesAt memory 12 4)) := by
  have hrounds := type2Ends_rounds hmin hpattern units
  have hend : ∀ fuel k, 4 * units ≤ type2Ends pattern total k →
      readStorageFrom (.holding memory pattern) 3 4 4 total units fuel ((type2Ends pattern total k + 3) / 4)
        (bytesAt memory 12 (type2Ends pattern total k)) = .failed "NDEF TLV truncated" := by
    intro fuel k hk
    cases fuel with
    | zero => rfl
    | succ fuel => exact if_neg (show ¬ (type2Ends pattern total k + 3) / 4 < units by omega)
  have hstart : (type2Ends pattern total 0 + 3) / 4 = 1 := by rw [type2Ends]
  rw [← hstart]
  exact concludes_of_rounds (type2_reads hmin hrange hpattern hunits)
    (fun fuel k => readStorageFrom (.holding memory pattern) 3 4 4 total units fuel
      ((type2Ends pattern total k + 3) / 4)
      (bytesAt memory 12 (type2Ends pattern total k)))
    (fun fuel k hk hnone => readStorageFrom_round hpattern hunits fuel k hk
      (hwhole.dvd hmin hrange hpattern hunits hk hnone)) hend units (by omega)

/-- How many units the host reads of a Type 2 tag at most. -/
def type2ScanUnits (size : Nat) : Nat := type2Units type2CcPage type2UnitSize.toNat type2FirstDataPage size

theorem type2ScanUnits_eq {n : Nat} (hn : n < 256) : type2ScanUnits (8 * n) = min (2 * n + 1) 223 := by
  have hlimit : type2ReadUnitLimit 3 4 4 (8 * n) type2StorageNdefScanMax = min (2 * n + 1) 223 := by
    rw [type2ReadUnitLimit, type2StorageNdefScanMax]
    simp only [show ¬ (4 : Nat) = 0 by decide, if_false, show ¬ 0xFFFF < 4 + min (8 * n) 912 by omega]
    rw [ceilUnitsU16_four (by omega)]
    simp only [type2StorageMaxPage, show 3 ≤ 225 by decide, if_true]
    omega
  rw [type2ScanUnits, type2Units]
  show (if (3 = type2CcPage ∧ 4 = type2UnitSize.toNat) then _ else _) = _
  rw [if_pos ⟨rfl, rfl⟩]
  show (if type2ReadUnitLimit 3 4 4 (8 * n) type2StorageNdefScanMax ≠ 0 ∧
    type2ReadUnitLimit 3 4 4 (8 * n) type2StorageNdefScanMax < (4 + 8 * n + 4 - 1) / 4 then
      type2ReadUnitLimit 3 4 4 (8 * n) type2StorageNdefScanMax else (4 + 8 * n + 4 - 1) / 4) = _
  rw [hlimit]
  split <;> omega

theorem readType2StorageNdef_holding (hopen : Type2Readable memory) (hpattern : ∀ unit len, 4 ≤ pattern unit len) :
    readType2StorageNdef (.holding memory pattern) =
      readStorageFrom (.holding memory pattern) 3 4 4 (4 + 8 * (memory 14).toNat)
        (type2ScanUnits (8 * (memory 14).toNat)) (type2ScanUnits (8 * (memory 14).toNat)) 1 (bytesAt memory 12 4) := by
  have hp := hpattern 3 4
  have hb := (memory 14).isLt
  obtain ⟨write, hinfo⟩ := type2ApplyCc_readable hopen
  have hread : (StorageCard.holding memory pattern).readBinary type2CcPage type2UnitSize.toNat =
      .ok (bytesAt memory 12 (pattern 3 4)) := rfl
  have hcc : (bytesAt memory 12 (pattern 3 4)).take t2tPageSizeBytes = bytesAt memory 12 4 :=
    bytesAt_take memory 12 (by rw [t2tPageSizeBytes]; omega)
  have hlong : ¬ (bytesAt memory 12 (pattern 3 4)).length < t2tPageSizeBytes := by
    rw [bytesAt_length, t2tPageSizeBytes]
    omega
  rw [readType2StorageNdef, hread]
  simp only [hlong, if_false, hcc, hinfo, Bool.true_eq_false, false_or, dataAreaSize_ne_zero hopen.size,
    dataAreaSize_toNat]
  rw [readStorageNdefTlv, type2FirstDataPage, if_neg (by omega)]
  have hseed : (bytesAt memory 12 4).take (4 + 8 * (memory 14).toNat) = bytesAt memory 12 4 :=
    List.take_of_length_le (by rw [bytesAt_length]; omega)
  have hindex : (if (bytesAt memory 12 4).length = 0 then some 0
      else ceilUnitsU16 (bytesAt memory 12 4).length type2UnitSize.toNat) = some 1 := by
    rw [bytesAt_length, if_neg (by decide)]
    exact ceilUnitsU16_four (by decide)
  have hscan : scanRaw (bytesAt memory 12 4) 4 (4 + 8 * (memory 14).toNat) = none := by
    rw [scanRaw, bytesAt_length, if_pos (Nat.le_refl 4)]
  simp only [hseed, hindex, hscan]
  rfl

/-- The bytes behind the reads of a Type 2 tag. -/
def type2ReadEnds (memory : Nat → Byte) (pattern : Nat → Nat → Nat) : Nat → Nat :=
  type2Ends pattern (4 + 8 * (memory 14).toNat)

/-- The reads of a Type 2 tag that the walk does not settle end with whole units. -/
def Type2WholeUnits (memory : Nat → Byte) (pattern : Nat → Nat → Nat) : Prop :=
  WholeUnits memory pattern (4 + 8 * (memory 14).toNat) (type2ScanUnits (8 * (memory 14).toNat))

/-- No read of a Type 2 tag comes to a false end. -/
def Type2Clean (memory : Nat → Byte) (pattern : Nat → Nat → Nat) : Prop :=
  ∀ k, type2ReadEnds memory pattern k < 4 * type2ScanUnits (8 * (memory 14).toNat) →
    ¬ FalseEnd memory 12 4 (type2ReadEnds memory pattern) (k + 1)

/-- **When a Type 2 read of whole units is faithful.** -/
theorem readType2StorageNdef_faithful_iff (hopen : Type2Readable memory) (hpattern : ∀ unit len, 4 ≤ pattern unit len)
    (hwhole : Type2WholeUnits memory pattern) :
    Faithful memory 12 4 (4 * type2ScanUnits (8 * (memory 14).toNat) - 4) (8 * (memory 14).toNat)
        (readType2StorageNdef (.holding memory pattern)) ↔
      WalksToEnd (bytesAt memory 16 (8 * (memory 14).toNat)) ∨ Type2Clean memory pattern := by
  have hb := (memory 14).isLt
  have hscan := type2ScanUnits_eq hb
  have hunits : 4 * type2ScanUnits (8 * (memory 14).toNat) ≤ 4 + 8 * (memory 14).toNat := by omega
  rw [readType2StorageNdef_holding hopen hpattern]
  refine (faithful_iff (type2_reads (by omega) (by omega) hpattern hunits)
    (readStorageFrom_concludes (by omega) (by omega) hpattern hunits hwhole)
    (by omega) (by omega) (by omega) (Or.inr (by omega))).trans ?_
  rw [Nat.add_sub_cancel_left]
  constructor
  · rintro (hwalk | ⟨hclean, -⟩)
    · exact Or.inl hwalk
    · exact Or.inr hclean
  · rintro (hwalk | hclean)
    · exact Or.inl hwalk
    · by_cases hwalk : WalksToEnd (bytesAt memory 16 (8 * (memory 14).toNat))
      · exact Or.inl hwalk
      · exact Or.inr ⟨hclean, hwalk⟩

/-- An area that ends without a message is read right in any case. -/
theorem faithful_of_walksToEnd {limit size : Nat} {result : Result} {base start : Nat} (hlimit : limit ≤ size)
    (hwalk : WalksToEnd (bytesAt memory (base + start) size)) : Faithful memory base start limit size result := by
  refine ⟨fun before field m hholds => ?_, fun _ => hwalk⟩
  have hvalue := hholds.find (hholds.fits.trans hlimit)
  rw [WalksToEnd, hvalue] at hwalk
  rcases hwalk with hwalk | hwalk <;> cases hwalk

end Type2

/-! ### Type 5 -/

/-- Blocks of a memory. -/
def blocksOf (memory : Nat → Byte) (block : Nat) : Except String Frame := .ok (bytesAt memory (4 * block) 4)

section Type5

variable {memory : Nat → Byte} {start blocks : Nat}

theorem type5_reads (hrange : 4 * blocks ≤ 0xFFFF) :
    Reads start (4 * blocks) (fun k => min (4 * k) (4 * blocks)) (4 * blocks) where
  mono i j hij := by
    show min (4 * i) (4 * blocks) ≤ min (4 * j) (4 * blocks)
    omega
  grows k hk := by omega
  start_le := by omega
  le_total k := Nat.min_le_right _ _
  bound_le := Nat.le_refl _
  range := hrange

theorem readType5From_concludes (hrange : 4 * blocks ≤ 0xFFFF) :
    Concludes memory 0 start (4 * blocks) (fun k => min (4 * k) (4 * blocks)) (4 * blocks)
      (readType5From (blocksOf memory) start (4 * blocks) blocks blocks 0 []) := by
  have hround : ∀ fuel k, min (4 * k) (4 * blocks) < 4 * blocks →
      readType5From (blocksOf memory) start (4 * blocks) blocks (fuel + 1) (min (4 * k) (4 * blocks) / 4)
        (bytesAt memory 0 (min (4 * k) (4 * blocks))) =
      match scanAt memory 0 start (4 * blocks) (fun k => min (4 * k) (4 * blocks)) (k + 1) with
      | some r => r
      | none =>
          readType5From (blocksOf memory) start (4 * blocks) blocks fuel (min (4 * (k + 1)) (4 * blocks) / 4)
            (bytesAt memory 0 (min (4 * (k + 1)) (4 * blocks))) := by
    intro fuel k hk
    have hsize : min (4 * k) (4 * blocks) = 4 * k := by omega
    have hnext : min (4 * (k + 1)) (4 * blocks) = 4 * k + 4 := by omega
    have hraw : bytesAt memory 0 (4 * k) ++ (bytesAt memory (4 * k) 4).take (min 4 (4 * blocks - 4 * k)) =
        bytesAt memory 0 (4 * k + 4) := by
      rw [List.take_of_length_le (by rw [bytesAt_length]; omega), ← bytesAt_append, Nat.zero_add]
    rw [scanAt, hsize, hnext, Nat.mul_div_cancel_left k (by decide), readType5From, if_pos (by omega)]
    have hquot : (4 * k + 4) / 4 = k + 1 := by omega
    cases hscan : scanRaw (bytesAt memory 0 (4 * k + 4)) start (4 * blocks) with
    | none => simp only [blocksOf, bytesAt_length, hraw, hquot, hscan]
    | some result => simp only [blocksOf, bytesAt_length, hraw, hscan]
  have hend : ∀ fuel k, 4 * blocks ≤ min (4 * k) (4 * blocks) →
      readType5From (blocksOf memory) start (4 * blocks) blocks fuel (min (4 * k) (4 * blocks) / 4)
        (bytesAt memory 0 (min (4 * k) (4 * blocks))) = .failed "NDEF TLV truncated" := by
    intro fuel k hk
    cases fuel with
    | zero => rfl
    | succ fuel => exact if_neg (by omega)
  have hrun := concludes_of_rounds (type5_reads hrange)
    (fun fuel k => readType5From (blocksOf memory) start (4 * blocks) blocks fuel (min (4 * k) (4 * blocks) / 4)
      (bytesAt memory 0 (min (4 * k) (4 * blocks)))) (fun fuel k hk _ => hround fuel k hk) hend blocks
        (Nat.le_of_eq (Nat.min_self _).symm)
  simpa only [Nat.mul_zero, Nat.zero_min, Nat.zero_div, bytesAt_zero] using hrun

/-- A total length that does not fit 16 bits leaves the loop nothing to look at. -/
theorem readType5From_nothing (fuel block : Nat) :
    readType5From (blocksOf memory) start 0 blocks fuel block [] = .failed "NDEF TLV truncated" := by
  induction fuel generalizing block with
  | zero => rfl
  | succ fuel ih =>
      rw [readType5From]
      split
      · have hscan : scanRaw [] start 0 = none := if_pos (Nat.zero_le start)
        simp only [blocksOf, Nat.zero_sub, Nat.min_zero, List.take_zero, List.append_nil, hscan]
        exact ih (block + 1)
      · rfl

theorem faithful_failed_iff {limit size : Nat} {err : String} :
    Faithful memory 0 start limit size (.failed err) ↔ ∀ before field m, ¬ Holds memory start limit before field m := by
  rw [Faithful, Nat.zero_add]
  constructor
  · rintro ⟨hmessage, -⟩ before field m hholds
    cases hmessage before field m hholds
  · intro hnone
    exact ⟨fun before field m hholds => absurd hholds (hnone before field m), nofun⟩

/-- The bytes behind `k` block reads of a Type 5 tag whose declared bytes end at `stop`. -/
def type5ReadEnds (stop k : Nat) : Nat := min (4 * k) (4 * ((stop + 3) / 4))

/-- **When a Type 5 read is faithful.** -/
theorem readType5NdefTlv_faithful_iff (memory : Nat → Byte) (start size : Nat) :
    Faithful memory 0 start (min size (type5StorageReadMax - start)) size
        (readType5NdefTlv (blocksOf memory) start size) ↔
      if start + size ≤ 65532 then
        WalksToEnd (bytesAt memory start size) ∨
          (∀ k, type5ReadEnds (start + size) k < 4 * ((start + size + 3) / 4) →
            ¬ FalseEnd memory 0 start (type5ReadEnds (start + size)) (k + 1)) ∧
          ¬ WalksToEnd (bytesAt memory start (4 * ((start + size + 3) / 4) - start))
      else ∀ before field m, ¬ Holds memory start (min size (type5StorageReadMax - start)) before field m := by
  have hmax : type5StorageReadMax = 65535 := rfl
  unfold readType5NdefTlv
  dsimp only
  by_cases hfits : start + size ≤ 65532
  swap
  · rw [if_neg hfits]
    split
    · exact faithful_failed_iff
    split
    · exact faithful_failed_iff
    · rename_i hrange hblocks
      have hlimit : type5ReadBlockLimit start size type5StorageReadMax = 16384 := by
        rw [type5ReadBlockLimit] at hblocks ⊢
        by_cases hstart : type5StorageReadMax ≤ start
        · rw [if_pos hstart] at hblocks
          exact absurd rfl hblocks
        · rw [if_neg hstart, Nat.min_eq_left (by omega), if_neg hrange, blockCeilBias, storageType5BlockSize]
          omega
      rw [hlimit, show u16 (16384 * storageType5BlockSize) = 0 from rfl, readType5From_nothing]
      exact faithful_failed_iff
  rw [if_pos hfits, if_neg (by omega)]
  have hlimit : type5ReadBlockLimit start size type5StorageReadMax = (start + size + 3) / 4 := by
    rw [type5ReadBlockLimit, if_neg (by omega), Nat.min_eq_left (by omega), if_neg (by omega), blockCeilBias,
      storageType5BlockSize]
  rw [hlimit]
  by_cases hzero : (start + size + 3) / 4 = 0
  · have hsize : size = 0 := by omega
    rw [if_pos hzero, faithful_failed_iff, hsize]
    refine iff_of_true (fun before field m hholds => ?_) (Or.inl (Or.inr (Tlv.find_of_finished rfl)))
    have hshort := hholds.fits
    simp only [List.length_append, List.length_cons, Nat.zero_min] at hshort
    omega
  have htotal : u16 ((start + size + 3) / 4 * storageType5BlockSize) = 4 * ((start + size + 3) / 4) := by
    rw [storageType5BlockSize, u16_of_le (by omega), Nat.mul_comm]
  have hrange : 4 * ((start + size + 3) / 4) ≤ 0xFFFF := by omega
  rw [if_neg hzero, htotal]
  refine (faithful_iff (type5_reads hrange) (readType5From_concludes hrange) (by omega) (by omega) (by omega)
    (Or.inl rfl)).trans ?_
  rw [Nat.zero_add]
  rfl

end Type5

/-- **Host reading of storage tags.** The host returns a message within its scan limits and calls a tag empty only if
the walk of the declared area ends without one: on a Type 2 tag, whatever number of bytes each read brings, if the walk
does end so, or every read that it does not settle ends with a whole unit and no read ends between two TLVs with a byte
`0xFE` among the bytes read; where the reads end with whole units, only then. On a Type 5 tag exactly then; for areas
that end inside a block the bytes of that block count as read, and an area whose rounded end passes 16 bits must hold
no message. -/
theorem host_storage_read (memory : Nat → Byte) :
    (∀ pattern, Type2Readable memory → (∀ unit len, 4 ≤ pattern unit len) →
      (WalksToEnd (bytesAt memory 16 (8 * (memory 14).toNat)) ∨
          Type2WholeUnits memory pattern ∧ Type2Clean memory pattern →
        Faithful memory 12 4 (4 * type2ScanUnits (8 * (memory 14).toNat) - 4) (8 * (memory 14).toNat)
          (readType2StorageNdef (.holding memory pattern))) ∧
      (Type2WholeUnits memory pattern →
        Faithful memory 12 4 (4 * type2ScanUnits (8 * (memory 14).toNat) - 4) (8 * (memory 14).toNat)
          (readType2StorageNdef (.holding memory pattern)) →
        WalksToEnd (bytesAt memory 16 (8 * (memory 14).toNat)) ∨ Type2Clean memory pattern)) ∧
    (∀ start size,
      (Faithful memory 0 start (min size (type5StorageReadMax - start)) size
          (readType5NdefTlv (blocksOf memory) start size) ↔
        if start + size ≤ 65532 then
          WalksToEnd (bytesAt memory start size) ∨
            (∀ k, type5ReadEnds (start + size) k < 4 * ((start + size + 3) / 4) →
              ¬ FalseEnd memory 0 start (type5ReadEnds (start + size)) (k + 1)) ∧
            ¬ WalksToEnd (bytesAt memory start (4 * ((start + size + 3) / 4) - start))
        else ∀ before field m, ¬ Holds memory start (min size (type5StorageReadMax - start)) before field m)) :=
  ⟨fun pattern hopen hpattern => by
    have hb := (memory 14).isLt
    have hscan := type2ScanUnits_eq hb
    refine ⟨?_, fun hwhole => (readType2StorageNdef_faithful_iff hopen hpattern hwhole).mp⟩
    rintro (hwalk | ⟨hwhole, hclean⟩)
    · exact @faithful_of_walksToEnd memory _ _ _ 12 4 (by omega) hwalk
    · exact (readType2StorageNdef_faithful_iff hopen hpattern hwhole).mpr (Or.inr hclean),
    readType5NdefTlv_faithful_iff memory⟩

/-- A Type 2 memory whose first data READ ends behind a foreign TLV with `0xFE` in its value. -/
def foreignRead : Nat → Byte :=
  memoryOf 12 ([0xE1, 0x10, 0x06, 0x00] ++ [0xFD, 0x0E, 0xFE] ++ List.replicate 13 0 ++ [0x03, 0x01, 0xD0])

/-- A Type 5 memory whose first data block is such a TLV. -/
def foreignBlock : Nat → Byte :=
  memoryOf 0 [0xE1, 0x40, 0x02, 0x00, 0xFD, 0x02, 0xFE, 0x00, 0x03, 0x01, 0xD0]

/-- A Type 2 memory with a message of five bytes. -/
def fiveByteMessage : Nat → Byte :=
  memoryOf 12 [0xE1, 0x10, 0x06, 0x00, 0x03, 0x05, 0xD1, 0x01, 0x01, 0x54, 0x41]

/-- Tags with a message behind such a TLV: the host calls them empty. And where six bytes come with each read, the host
goes on two units further, past two bytes that it never sees. -/
theorem host_storage_read_false_end :
    (Type2Readable foreignRead ∧
      Holds foreignRead 16 (4 * type2ScanUnits (8 * (foreignRead 14).toNat) - 4)
        ([0xFD, 0x0E, 0xFE] ++ List.replicate 13 0) [0x01] [0xD0] ∧
      readType2StorageNdef (.holding foreignRead fun _ _ => 16) = .empty) ∧
    (Type2Readable fiveByteMessage ∧
      Holds fiveByteMessage 16 (4 * type2ScanUnits (8 * (fiveByteMessage 14).toNat) - 4) [] [0x05]
        [0xD1, 0x01, 0x01, 0x54, 0x41] ∧
      readType2StorageNdef (.holding fiveByteMessage fun _ _ => 6) = .message [0xD1, 0x01, 0x01, 0x54, 0x00]) ∧
    (Holds foreignBlock 4 (min 16 (type5StorageReadMax - 4)) [0xFD, 0x02, 0xFE, 0x00] [0x01] [0xD0] ∧
      readType5NdefTlv (blocksOf foreignBlock) 4 16 = .empty) := by
  refine ⟨⟨⟨by decide, by decide, by decide⟩, ⟨?_, .short (n := 1) (by decide), by decide, by decide⟩, by decide⟩,
    ⟨⟨by decide, by decide, by decide⟩, ⟨.nil, .short (n := 5) (by decide), by decide, by decide⟩, by decide⟩,
    ⟨?_, .short (n := 1) (by decide), by decide, by decide⟩, by decide⟩
  · exact .short (by decide) (by decide) (by decide) (by decide) (by decide)
  · exact .short (by decide) (by decide) (by decide) (by decide) (by decide)

/-- Tags with the message at the front of the area, read in reads of one unit. -/
theorem host_storage_read_front :
    readType2StorageNdef (.holding (memoryOf 12 [0xE1, 0x10, 0x06, 0x00, 0x03, 0x01, 0xD0]) fun _ _ => 4) =
        .message [0xD0] ∧
      readType5NdefTlv (blocksOf (memoryOf 0 [0xE1, 0x40, 0x02, 0x00, 0x03, 0x01, 0xD0])) 4 16 = .message [0xD0] := by
  have hwhole : Type2WholeUnits (memoryOf 12 [0xE1, 0x10, 0x06, 0x00, 0x03, 0x01, 0xD0]) fun _ _ => 4 := fun k _ _ =>
    type2Ends_dvd (by decide) (fun _ _ => Nat.dvd_refl 4) (k + 1)
  refine ⟨(((host_storage_read _).1 (fun _ _ => 4) ⟨by decide, by decide, by decide⟩
    fun _ _ => Nat.le_refl 4).1 (Or.inr ⟨hwhole, fun k _ hfalse => ?_⟩)).1 [] [0x01] [0xD0]
      ⟨.nil, .short (n := 1) (by decide), by decide, by decide⟩,
    (((host_storage_read (memoryOf 0 [0xE1, 0x40, 0x02, 0x00, 0x03, 0x01, 0xD0])).2 4 16).mpr ?_).1 [] [0x01] [0xD0]
      ⟨.nil, .short (n := 1) (by decide), by decide, by decide⟩⟩
  · obtain ⟨i, -, hbyte⟩ := mem_bytesAt.mp hfalse.2
    exact memoryOf_ne (by decide) (by decide) _ hbyte
  · rw [if_pos (by decide)]
    refine Or.inr ⟨fun k _ hfalse => ?_, fun hwalk => ?_⟩
    · obtain ⟨i, -, hbyte⟩ := mem_bytesAt.mp hfalse.2
      exact memoryOf_ne (by decide) (by decide) _ hbyte
    · have hholds : Holds (memoryOf 0 [0xE1, 0x40, 0x02, 0x00, 0x03, 0x01, 0xD0]) 4 16 [] [0x01] [0xD0] :=
        ⟨.nil, .short (n := 1) (by decide), by decide, by decide⟩
      have hvalue : Tlv.find tlvMessage (bytesAt (memoryOf 0 [0xE1, 0x40, 0x02, 0x00, 0x03, 0x01, 0xD0]) 4 16) =
          .value [0xD0] := hholds.find hholds.fits
      rw [WalksToEnd, show 4 * ((4 + 16 + 3) / 4) - 4 = 16 from rfl, hvalue] at hwalk
      rcases hwalk with hwalk | hwalk <;> cases hwalk

end NeroReader.HostStorage
