import SvmWasiCore.Lib.ByteCodec
import SvmWasiCore.Lib.LittleEndian

/-!
Codecs of a fixed width.

Such a codec takes a fixed number of bytes, so a field behind others stands at a fixed offset: a
packed record can be decoded field by field or read at offsets, and both come to the same.
-/

namespace SvmWasiCore.Lib.FixedWidth

open ByteCodec LittleEndian

variable {ε α β : Type} {k l : ℕ} {get : Bytes → α} {get' : Bytes → β}
  {c : Codec ε α} {d : Codec ε β}

/-- The codec takes `k` bytes, and `get` reads the value off them. -/
def Reads (c : Codec ε α) (k : ℕ) (get : Bytes → α) : Prop :=
  ∀ w a rest, c.dec w = .ok (a, rest) ↔ k ≤ w.length ∧ a = get w ∧ rest = w.drop k

/-! ### Bytes, pairs, renamed values -/

lemma reads_byte (eof : ε) : Reads (.byte eof) 1 fun w => w.getD 0 0 := by
  intro w a rest
  cases w with
  | nil => exact iff_of_false (by simp [Codec.byte]) (by simp)
  | cons b w =>
    simp only [Codec.byte, Except.ok.injEq, Prod.mk.injEq, List.length_cons, List.getD_cons_zero,
      List.drop_one, List.tail_cons, Nat.le_add_left, true_and, eq_comm]

lemma reads_seq (hc : Reads c k get) (hd : Reads d l get') :
    Reads (c.seq d) (k + l) fun w => (get w, get' (w.drop k)) := by
  intro w x rest
  refine ⟨fun h => ?_, fun h => ?_⟩
  · obtain ⟨⟨a, w1⟩, h1, h⟩ := bind_eq_ok.mp h
    obtain ⟨⟨b, w2⟩, h2, h⟩ := bind_eq_ok.mp h
    obtain ⟨rfl, rfl⟩ := Prod.mk.inj (Except.ok.inj h)
    obtain ⟨hk, rfl, rfl⟩ := (hc _ _ _).mp h1
    obtain ⟨hl, rfl, rfl⟩ := (hd _ _ _).mp h2
    rw [List.length_drop] at hl
    exact ⟨by omega, rfl, List.drop_drop⟩
  · obtain ⟨hlen, rfl, rfl⟩ := h
    have h1 := (hc w _ _).mpr ⟨by omega, rfl, rfl⟩
    have h2 := (hd (w.drop k) _ _).mpr ⟨by rw [List.length_drop]; omega, rfl, rfl⟩
    refine bind_eq_ok.mpr ⟨_, h1, bind_eq_ok.mpr ⟨_, h2, ?_⟩⟩
    rw [List.drop_drop]
    rfl

lemma reads_iso (hc : Reads c k get) (e : α ≃ β) : Reads (c.iso e) k (e ∘ get) := by
  intro w b rest
  refine ⟨fun h => ?_, fun h => ?_⟩
  · obtain ⟨⟨a, w1⟩, h1, h⟩ := bind_eq_ok.mp h
    obtain ⟨rfl, rfl⟩ := Prod.mk.inj (Except.ok.inj h)
    obtain ⟨hk, rfl, rfl⟩ := (hc _ _ _).mp h1
    exact ⟨hk, rfl, rfl⟩
  · obtain ⟨hlen, rfl, rfl⟩ := h
    exact bind_eq_ok.mpr ⟨_, (hc w _ _).mpr ⟨hlen, rfl, rfl⟩, rfl⟩

/-- An array of bytes. -/
lemma reads_bytes (eof : ε) (n : ℕ) : Reads ((Codec.byte eof).fixed n) n fun w => array n w 0 := by
  induction n with
  | zero =>
    intro w v rest
    obtain rfl := v.eq_nil
    refine ⟨fun h => ?_, fun h => ?_⟩
    · obtain ⟨-, rfl⟩ := Prod.mk.inj (Except.ok.inj h)
      exact ⟨Nat.zero_le _, rfl, rfl⟩
    · obtain ⟨-, -, rfl⟩ := h
      rfl
  | succ n ih =>
    intro w v rest
    have hfirst : array (n + 1) w 0 = w.getD 0 0 ::ᵥ array n (w.drop 1) 0 := by
      rw [array_drop]
      refine List.Vector.eq _ _ ?_
      simp [array, List.ofFn_succ, Nat.add_comm]
    have hrest : (w.drop 1).drop n = w.drop (n + 1) := by rw [List.drop_drop, Nat.add_comm]
    refine ⟨fun h => ?_, fun h => ?_⟩
    · obtain ⟨⟨b, w1⟩, h1, h⟩ := bind_eq_ok.mp h
      obtain ⟨⟨v1, w2⟩, h2, h⟩ := bind_eq_ok.mp h
      obtain ⟨rfl, rfl⟩ := Prod.mk.inj (Except.ok.inj h)
      obtain ⟨h1len, rfl, rfl⟩ := (reads_byte eof _ _ _).mp h1
      obtain ⟨hlen, rfl, rfl⟩ := (ih _ _ _).mp h2
      rw [List.length_drop] at hlen
      exact ⟨by omega, hfirst.symm, hrest⟩
    · obtain ⟨hlen, rfl, rfl⟩ := h
      have h1 := (reads_byte eof w _ _).mpr ⟨by omega, rfl, rfl⟩
      have h2 := (ih (w.drop 1) _ _).mpr ⟨by rw [List.length_drop]; omega, rfl, rfl⟩
      refine bind_eq_ok.mpr ⟨_, h1, bind_eq_ok.mpr ⟨_, h2, ?_⟩⟩
      beta_reduce
      rw [hfirst, hrest]
      rfl

/-- An encoding of a fixed width is told from what follows it. -/
lemma append_inj_of_width {f : α → Bytes} {n : ℕ} (hlen : ∀ a, (f a).length = n)
    (hinj : Function.Injective f) {a a' : α} {w w' : Bytes} :
    f a ++ w = f a' ++ w' ↔ a = a' ∧ w = w' := by
  refine ⟨fun h => ?_, fun h => by rw [h.1, h.2]⟩
  obtain ⟨ha, hw⟩ := List.append_inj h (by rw [hlen, hlen])
  exact ⟨hinj ha, hw⟩

/-! ### What follows for a record -/

lemma Reads.dec_eq (hc : Reads c k get) {w : Bytes} (h : k ≤ w.length) :
    c.dec w = .ok (get w, w.drop k) := (hc _ _ _).mpr ⟨h, rfl, rfl⟩

/-- The bytes that were read are the encoding of what was read. -/
lemma Reads.enc_get (hc : Reads c k get) {w : Bytes} (h : k ≤ w.length) :
    c.enc (get w) = some (w.take k) := by
  obtain ⟨p, hp, hw⟩ := c.enc_dec (hc.dec_eq h)
  have hsplit : p ++ w.drop k = w.take k ++ w.drop k := by
    rw [List.take_append_drop]
    exact hw.symm
  rw [hp, List.append_cancel_right hsplit]

/-- An encoding takes `k` bytes, and is read back whatever follows. -/
lemma Reads.of_enc (hc : Reads c k get) {a : α} {p : Bytes} (h : c.enc a = some p) :
    p.length = k ∧ ∀ rest, get (p ++ rest) = a := by
  have hread (rest : Bytes) := (hc _ _ _).mp (c.dec_enc h rest)
  refine ⟨?_, fun rest => (hread rest).2.1.symm⟩
  obtain ⟨hlen, -, hrest⟩ := hread []
  rw [List.append_nil] at hlen hrest
  have hle := List.drop_eq_nil_iff.mp hrest.symm
  omega

/-- Of `k` bytes, those that read as `a` are its encoding. -/
lemma Reads.get_eq_iff (hc : Reads c k get) {a : α} {p : Bytes} (h : c.enc a = some p) {w : Bytes}
    (hw : w.length = k) : get w = a ↔ w = p := by
  refine ⟨fun hget => ?_, fun hp => ?_⟩
  · have henc := hc.enc_get hw.ge
    rw [hget, h, List.take_of_length_le hw.le] at henc
    exact (Option.some.inj henc).symm
  · rw [hp, ← List.append_nil p]
    exact (hc.of_enc h).2 []

/-- An input whose first `k` bytes read as `a` begins with its encoding. -/
lemma Reads.take_get_eq_iff (hc : Reads c k get) {a : α} {p : Bytes} (h : c.enc a = some p)
    {w : Bytes} : k ≤ w.length ∧ get (w.take k) = a ↔ ∃ rest, w = p ++ rest := by
  have hlen := (hc.of_enc h).1
  refine ⟨fun hw => ?_, fun hw => ?_⟩
  · obtain ⟨hk, hget⟩ := hw
    have hp := (hc.get_eq_iff h (List.length_take_of_le hk)).mp hget
    exact ⟨w.drop k, by rw [← hp, List.take_append_drop]⟩
  · obtain ⟨rest, rfl⟩ := hw
    rw [List.take_left' hlen, hc.get_eq_iff h hlen, List.length_append]
    exact ⟨by omega, rfl⟩

end SvmWasiCore.Lib.FixedWidth
