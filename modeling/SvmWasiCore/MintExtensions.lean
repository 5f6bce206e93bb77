import SvmWasiCore.TokenState

/-!
The finders against the walk over a mint's records.

The scan of `get_extension` fails on malformed records, and the finders read every such failure as
"absent". Where the walk stops tells when that reading is right.
-/

namespace SvmWasiCore.MintExtensions

open Lib.ByteCodec Lib.LittleEndian Lib.Tlv TokenState

variable {v : Extension}

/-- Where the scan from `start` finds the extension, as the walk sees it. -/
def FoundAt (v : Extension) (tlvData : Bytes) (start i : ℕ) : Prop :=
  i + 4 ≤ tlvData.length ∧ (walk v.type (tlvData.drop start)).stop =
    .record (u16At tlvData (i + 2)).toNat (tlvData.drop (i + 4))

lemma not_foundAt_of_stop {tlvData : Bytes} {start i : ℕ}
    (h : ∀ len rest, (walk v.type (tlvData.drop start)).stop ≠ .record len rest) :
    ¬FoundAt v tlvData start i := fun hf => h _ _ hf.2

lemma le_length_drop {tlvData : Bytes} {start n : ℕ} (h : start + n ≤ tlvData.length) :
    n ≤ (tlvData.drop start).length := by
  rw [List.length_drop]
  omega

/-- A record of another type that the scan skips over: what is found is found behind it. -/
lemma foundAt_pass {tlvData : Bytes} {start i : ℕ} (hs : start + 4 ≤ tlvData.length)
    (h0 : u16At tlvData start ≠ 0) (ht : u16At tlvData start ≠ v.type) :
    FoundAt v tlvData start i ↔
      FoundAt v tlvData (start + 4 + (u16At tlvData (start + 2)).toNat) i := by
  have hw : 4 ≤ (tlvData.drop start).length := le_length_drop hs
  have e0 : u16At (tlvData.drop start) 0 = u16At tlvData start := u16At_drop _ _ _
  have e2 : u16At (tlvData.drop start) 2 = u16At tlvData (start + 2) := u16At_drop _ _ _
  rcases Nat.lt_or_ge (tlvData.drop start).length
    (4 + (u16At (tlvData.drop start) 2).toNat) with hv | hv
  · -- its value overruns the area, and what follows it is empty
    have hnil : tlvData.drop (start + 4 + (u16At tlvData (start + 2)).toNat) = [] := by
      rw [List.drop_eq_nil_iff]
      rw [List.length_drop, e2] at hv
      omega
    have hover := walk_overrun hw (by rwa [e0]) (by rwa [e0]) hv
    exact iff_of_false (not_foundAt_of_stop (by simp [hover]))
      (not_foundAt_of_stop (by simp [hnil]))
  · have hpass := walk_pass hw (by rwa [e0]) (by rwa [e0]) hv
    rw [List.drop_drop, e0, e2, ← Nat.add_assoc] at hpass
    unfold FoundAt
    rw [hpass]

lemma foundAt_record {tlvData : Bytes} {start i : ℕ} (hs : start + 4 ≤ tlvData.length)
    (ht : u16At tlvData start = v.type) : FoundAt v tlvData start i ↔ i = start := by
  have hw : 4 ≤ (tlvData.drop start).length := le_length_drop hs
  have hrec := walk_record v.initialized hw (by rw [u16At_drop]; exact ht)
  rw [List.drop_drop, u16At_drop] at hrec
  unfold FoundAt
  rw [hrec]
  refine ⟨fun h => ?_, ?_⟩
  · obtain ⟨hi, h⟩ := h
    have hlen := congrArg List.length (Stop.record.inj h).2
    simp only [List.length_drop] at hlen
    omega
  · rintro rfl
    exact ⟨hs, rfl⟩

/-- The scan finds the record the walk stops at. -/
lemma getExtensionIndices_eq_ok_iff (tlvData : Bytes) (start : ℕ) (tlvIndices : TlvIndices) :
    getExtensionIndices v tlvData start = .ok tlvIndices ↔
      ∃ i, tlvIndices = getTlvIndices i ∧ FoundAt v tlvData start i := by
  fun_induction getExtensionIndices v tlvData start with
  | case1 start hlt ix hshort =>
    -- the area ends inside the header
    have hlen : (tlvData.drop start).length < 4 := by
      rw [List.length_drop]
      change tlvData.length < start + 4 at hshort
      omega
    have hstop : ∀ len rest, (walk v.type (tlvData.drop start)).stop ≠ .record len rest :=
      walk_short hlen
    simp [not_foundAt_of_stop hstop]
  | case2 start hlt ix hlong ht =>
    -- the type looked for
    simp only [foundAt_record (Nat.le_of_not_lt hlong) ht, Except.ok.injEq]
    refine ⟨?_, fun h => ?_⟩
    · rintro rfl
      exact ⟨start, rfl, rfl⟩
    · obtain ⟨i, rfl, rfl⟩ := h
      rfl
  | case3 start hlt ix hlong ht h0 =>
    -- the unused rest
    have h4 : start + 4 ≤ tlvData.length := Nat.le_of_not_lt hlong
    have hlen : 2 ≤ (tlvData.drop start).length := le_length_drop (by omega)
    have hstop : ∀ len rest, (walk v.type (tlvData.drop start)).stop ≠ .record len rest := by
      rw [walk_uninitialized hlen (by rw [u16At_drop]; exact h0)]
      simp
    simp [not_foundAt_of_stop hstop]
  | case4 start hlt ix hlong ht h0 length ih =>
    refine Iff.trans ih ?_
    simp only [foundAt_pass (Nat.le_of_not_lt hlong) h0 ht]
    rfl
  | case5 start hend =>
    have hnil : tlvData.drop start = [] := List.drop_eq_nil_iff.mpr (Nat.le_of_not_lt hend)
    have hstop : ∀ len rest, (walk v.type (tlvData.drop start)).stop ≠ .record len rest := by
      rw [hnil, walk_nil]
      simp
    simp [not_foundAt_of_stop hstop]

/-- Past the scan, `get_extension` cuts the value out and checks its end and its size. -/
lemma getExtension_of_indices {state : StateWithExtensions} {i : ℕ}
    (hi : i + 4 ≤ state.tlvData.length)
    (h : getExtensionIndices v state.tlvData 0 = .ok (getTlvIndices i)) (raw : Bytes) :
    state.getExtension v = .ok raw ↔
      (u16At state.tlvData (i + 2)).toNat ≤ (state.tlvData.drop (i + 4)).length ∧
        (u16At state.tlvData (i + 2)).toNat = v.size ∧
          raw = (state.tlvData.drop (i + 4)).take v.size := by
  obtain ⟨base, w⟩ := state
  simp only at hi h ⊢
  have hlen : (w.drop (i + 4)).length = w.length - (i + 4) := List.length_drop
  have hcut (n : ℕ) : (w.take (i + 4 + n)).drop (i + 4) = (w.drop (i + 4)).take n := by
    rw [List.drop_take, Nat.add_sub_cancel_left]
  rcases Nat.lt_or_ge w.length (i + 4 + (u16At w (i + 2)).toNat) with hend | hend
  · have hbytes : getExtensionBytes v w = .error .invalidAccountData := by
      unfold getExtensionBytes
      rw [h]
      exact if_pos hend
    simp only [StateWithExtensions.getExtension, hbytes, hlen]
    refine ⟨fun h => ?_, fun h => ?_⟩
    · cases h
    · omega
  · have hbytes : getExtensionBytes v w
        = .ok ((w.drop (i + 4)).take (u16At w (i + 2)).toNat) := by
      unfold getExtensionBytes
      rw [h, ← hcut]
      exact if_neg (Nat.not_lt.mpr hend)
    have hsize : ((w.drop (i + 4)).take (u16At w (i + 2)).toNat).length
        = (u16At w (i + 2)).toNat := by
      rw [List.length_take, hlen]
      omega
    unfold StateWithExtensions.getExtension
    rw [hbytes]
    change (if _ = v.size then _ else _ : Except ProgramError Bytes) = _ ↔ _
    rw [hsize]
    split_ifs with hv
    · rw [hv]
      simp only [pure, Except.pure, Except.ok.injEq, true_and]
      refine ⟨?_, fun h => ?_⟩
      · rintro rfl
        exact ⟨by omega, rfl⟩
      · obtain ⟨-, rfl⟩ := h
        rfl
    · simp [hv]

/-- The bytes `get_extension` returns: those of a record that the walk stops at, that has the
extension's size and lies inside the area. -/
lemma getExtension_eq_ok_iff (state : StateWithExtensions) (raw : Bytes) :
    state.getExtension v = .ok raw ↔
      ∃ rest, (walk v.type state.tlvData).stop = .record v.size rest ∧ v.size ≤ rest.length ∧
        raw = rest.take v.size := by
  have hscan := getExtensionIndices_eq_ok_iff (v := v) state.tlvData 0
  simp only [FoundAt, List.drop_zero] at hscan
  refine ⟨fun h => ?_, fun h => ?_⟩
  · obtain ⟨bytes, hbytes, -⟩ := bind_eq_ok.mp h
    obtain ⟨ix, hix, -⟩ := bind_eq_ok.mp hbytes
    obtain ⟨i, rfl, hi, hstop⟩ := (hscan ix).mp hix
    obtain ⟨hle, hsize, rfl⟩ := (getExtension_of_indices hi hix raw).mp h
    rw [hsize] at hle hstop
    exact ⟨_, hstop, hle, rfl⟩
  · obtain ⟨rest, hstop, hle, rfl⟩ := h
    obtain ⟨i, hi, hlen, rfl⟩ := exists_of_walk_record hstop
    have hix := (hscan (getTlvIndices i)).mpr ⟨i, rfl, hi, by rw [hstop, hlen]⟩
    rw [hlen] at hle
    exact (getExtension_of_indices hi hix _).mpr ⟨hle, hlen.symm, rfl⟩

/-! ### What a finder owes its caller -/

variable {α : Type} {decode : Bytes → Option α}

/-- A finder's result `r` on an area the walk ends at `stop`: it decodes a well-formed record, and
reads nothing malformed as absent. -/
structure FailsClosed (size : ℕ) (decode : Bytes → Option α) (stop : Stop)
    (r : Except TokenStateError (Option α)) : Prop where
  wellFormed : ∀ rest, stop = .record size rest → size ≤ rest.length →
    r = .ok (decode (rest.take size))
  malformed : ∀ len rest, stop = .record len rest → len ≠ size ∨ rest.length < len →
    ∃ e, r = .error e
  overrun : stop = .overrun → ∃ e, r = .error e
  absent : r = .ok none → stop = .uninitialized ∨ stop = .boundary ∨
    ∃ rest, stop = .record size rest ∧ size ≤ rest.length ∧ decode (rest.take size) = none

/-- The areas the finders are right about: nothing malformed is reached. -/
def Readable (size : ℕ) (stop : Stop) : Prop :=
  stop = .uninitialized ∨ stop = .boundary ∨
    ∃ rest, stop = .record size rest ∧ size ≤ rest.length

lemma findExtension_of_ok {mintData : Bytes} {state : StateWithExtensions} {raw : Bytes}
    (hs : StateWithExtensions.unpack mintData = .ok state)
    (h : state.getExtension v = .ok raw) :
    findExtension v decode mintData = .ok (decode raw) := by
  unfold findExtension
  rw [hs]
  simp only [h]

lemma findExtension_of_not_ok {mintData : Bytes} {state : StateWithExtensions}
    (hs : StateWithExtensions.unpack mintData = .ok state)
    (h : ∀ raw, state.getExtension v ≠ .ok raw) :
    findExtension v decode mintData = .ok none := by
  unfold findExtension
  rw [hs]
  rcases hg : state.getExtension v with e | raw
  · simp only [hg]
  · exact absurd hg (h raw)

/-- A finder that got past `unpack` never fails. -/
lemma findExtension_ne_error {mintData : Bytes} {state : StateWithExtensions}
    (hs : StateWithExtensions.unpack mintData = .ok state) (e : TokenStateError) :
    findExtension v decode mintData ≠ .error e := by
  by_cases hfound : ∃ raw, state.getExtension v = .ok raw
  · obtain ⟨raw, hraw⟩ := hfound
    rw [findExtension_of_ok hs hraw]
    simp
  · rw [findExtension_of_not_ok hs (not_exists.mp hfound)]
    simp

/-- A well-formed record is decoded. -/
lemma findExtension_record {mintData : Bytes} {state : StateWithExtensions}
    (hs : StateWithExtensions.unpack mintData = .ok state) {rest : Bytes}
    (hstop : (walk v.type state.tlvData).stop = .record v.size rest) (hle : v.size ≤ rest.length) :
    findExtension v decode mintData = .ok (decode (rest.take v.size)) :=
  findExtension_of_ok hs ((getExtension_eq_ok_iff state _).mpr ⟨rest, hstop, hle, rfl⟩)

/-- A finder is right about exactly the readable areas. -/
lemma findExtension_failsClosed_iff {mintData : Bytes} {state : StateWithExtensions}
    (hs : StateWithExtensions.unpack mintData = .ok state) :
    FailsClosed v.size decode (walk v.type state.tlvData).stop
        (findExtension v decode mintData) ↔
      Readable v.size (walk v.type state.tlvData).stop := by
  refine ⟨fun h => ?_, fun h => ?_⟩
  · by_cases hfound : ∃ raw, state.getExtension v = .ok raw
    · obtain ⟨raw, hraw⟩ := hfound
      obtain ⟨rest, hstop, hle, -⟩ := (getExtension_eq_ok_iff state raw).mp hraw
      exact .inr (.inr ⟨rest, hstop, hle⟩)
    · have hnone : findExtension v decode mintData = .ok none :=
        findExtension_of_not_ok hs (not_exists.mp hfound)
      rcases h.absent hnone with hstop | hstop | ⟨rest, hstop, hle, -⟩
      · exact .inl hstop
      · exact .inr (.inl hstop)
      · exact .inr (.inr ⟨rest, hstop, hle⟩)
  · rcases h with hstop | hstop | ⟨rest, hstop, hle⟩
    · rw [hstop]
      exact ⟨by simp, by simp, by simp, fun _ => .inl rfl⟩
    · rw [hstop]
      exact ⟨by simp, by simp, by simp, fun _ => .inr (.inl rfl)⟩
    · have hfind : findExtension v decode mintData = .ok (decode (rest.take v.size)) :=
        findExtension_record hs hstop hle
      rw [hstop, hfind]
      refine ⟨?_, ?_, by simp, ?_⟩
      · rintro rest' hrest -
        cases hrest
        rfl
      · intro len rest' hrest hbad
        cases hrest
        omega
      · intro hnone
        exact .inr (.inr ⟨rest, rfl, hle, Except.ok.inj hnone⟩)

/-! ### The three finders -/

/-- **When the mint-risk finders fail closed**: for every mint `unpack` accepts, each finder does
what its caller relies on exactly when the walk over the records meets nothing malformed. -/
theorem finders_fail_closed_iff (mintData : Bytes) (state : StateWithExtensions)
    (hs : StateWithExtensions.unpack mintData = .ok state) :
    (FailsClosed 108 transferFeeConfigOf (walk 1 state.tlvData).stop
        (findTransferFeeConfig mintData) ↔ Readable 108 (walk 1 state.tlvData).stop) ∧
    (FailsClosed 32 delegateOf (walk 12 state.tlvData).stop
        (findPermanentDelegate mintData) ↔ Readable 32 (walk 12 state.tlvData).stop) ∧
    (FailsClosed 64 transferHookOf (walk 14 state.tlvData).stop
        (findTransferHook mintData) ↔ Readable 64 (walk 14 state.tlvData).stop) := by
  refine ⟨?_, ?_, ?_⟩
  · exact findExtension_failsClosed_iff (v := transferFeeConfig) hs
  · exact findExtension_failsClosed_iff (v := permanentDelegate) hs
  · exact findExtension_failsClosed_iff (v := transferHook) hs

/-- A mint with no authorities, extended by the records of `tlvData`. -/
def extendedMint (tlvData : Bytes) : Bytes :=
  List.replicate 45 0 ++ [1] ++ List.replicate 119 0 ++ [1] ++ tlvData

/-- A permanent delegate of 32 bytes, behind a record of a type nobody has defined. -/
def delegateRecord : Bytes := [0xff, 0xff, 1, 0, 7, 12, 0, 32, 0] ++ List.replicate 32 9

/-- A permanent delegate whose length field says 31. -/
def shortDelegateRecord : Bytes := [12, 0, 31, 0] ++ List.replicate 31 9

theorem finders_fail_closed_iff_delegateRecord :
    FailsClosed 32 delegateOf (walk 12 delegateRecord).stop
      (findPermanentDelegate (extendedMint delegateRecord)) := by
  have hs : StateWithExtensions.unpack (extendedMint delegateRecord)
      = .ok ⟨⟨none, 0, 0, true, none⟩, delegateRecord⟩ := by decide +kernel
  refine (finders_fail_closed_iff _ _ hs).2.1.mpr ?_
  have hwalk : walk 12 delegateRecord = ⟨[0xffff], .record 32 (List.replicate 32 9)⟩ := by
    have hbehind : walk 12 (delegateRecord.drop 5) = ⟨[], .record 32 (List.replicate 32 9)⟩ :=
      walk_record (by decide) (by decide) (by decide)
    refine (walk_pass (by decide) (by decide) (by decide) (by decide)).trans ?_
    change Walked.mk (_ :: (walk 12 (delegateRecord.drop 5)).passed)
      (walk 12 (delegateRecord.drop 5)).stop = _
    rw [hbehind]
    rfl
  exact .inr (.inr ⟨_, congrArg Walked.stop hwalk, by decide⟩)

/-- A delegate the finder reports as absent. -/
theorem short_delegate_reads_as_absent :
    ∃ state, StateWithExtensions.unpack (extendedMint shortDelegateRecord) = .ok state ∧
      findPermanentDelegate (extendedMint shortDelegateRecord) = .ok none ∧
      ¬FailsClosed 32 delegateOf (walk 12 state.tlvData).stop
        (findPermanentDelegate (extendedMint shortDelegateRecord)) := by
  have hs : StateWithExtensions.unpack (extendedMint shortDelegateRecord)
      = .ok ⟨⟨none, 0, 0, true, none⟩, shortDelegateRecord⟩ := by decide +kernel
  have hwalk : walk 12 shortDelegateRecord = ⟨[], .record 31 (List.replicate 31 9)⟩ :=
    walk_record (by decide) (by decide) (by decide)
  have hfind : findPermanentDelegate (extendedMint shortDelegateRecord) = .ok none := by
    refine findExtension_of_not_ok hs fun raw hraw => ?_
    obtain ⟨rest, hstop, -⟩ := (getExtension_eq_ok_iff _ raw).mp hraw
    have := (congrArg Walked.stop hwalk).symm.trans hstop
    simp [permanentDelegate] at this
  refine ⟨_, hs, hfind, fun h => ?_⟩
  obtain ⟨e, he⟩ := h.malformed 31 _ (congrArg Walked.stop hwalk) (.inl (by decide))
  exact findExtension_ne_error hs e he

end SvmWasiCore.MintExtensions
