import SvmWasiCore.Lib.ByteCodec

/-!
How far an encoding extends.

A frame skips one encoding by its lengths alone, without building a value, and returns what is
left of the input. The combinators mirror those of the codecs, and each frames its codec.
-/

namespace SvmWasiCore.Lib.Framing

open ByteCodec

/-- What is left behind one encoding; nothing when the input breaks off. -/
abbrev Frame := Bytes → Option Bytes

/-! ### Combinators -/

def bytes (n : ℕ) : Frame := fun w => if n ≤ w.length then some (w.drop n) else none

def seq (f g : Frame) : Frame := fun w => (f w).bind g

def times (f : Frame) : ℕ → Frame
  | 0 => some
  | n + 1 => seq f (times f n)

/-- A count and as many encodings. -/
def counted (len : Bytes → Option (ℕ × Bytes)) (f : Frame) : Frame :=
  fun w => (len w).bind fun x => times f x.1 x.2

variable {ε α β : Type}

/-- The frame accepts what the decoder accepts and ends where the decoder stops. -/
def Frames (f : Frame) (c : Codec ε α) : Prop :=
  ∀ w, f w = ((c.dec w).toOption).map Prod.snd

lemma Frames.eq_some_iff {f : Frame} {c : Codec ε α} (h : Frames f c) {w rest : Bytes} :
    f w = some rest ↔ ∃ a, c.dec w = .ok (a, rest) := by
  rw [h w]
  rcases c.dec w with e | ⟨a, rest'⟩
  · simp [Except.toOption]
  · simp [Except.toOption]

/-! ### The frames of the codecs -/

lemma frames_byte (eof : ε) : Frames (bytes 1) (Codec.byte eof) := by
  intro w
  cases w with
  | nil => rfl
  | cons b w => simp [bytes, Codec.byte, Except.toOption]

/-- What is made of a value does not move its end. -/
lemma left_of_bind {γ : Type} (x : Except ε (β × Bytes)) (g : β → γ) :
    ((x >>= fun y => pure (g y.1, y.2)).toOption).map Prod.snd = x.toOption.map Prod.snd := by
  rcases x with e | ⟨b, w⟩
  · rfl
  · rfl

lemma frames_seq {f g : Frame} {c : Codec ε α} {d : Codec ε β} (hf : Frames f c)
    (hg : Frames g d) : Frames (seq f g) (c.seq d) := by
  intro w
  have hdec : (c.seq d).dec w = (c.dec w >>= fun x => d.dec x.2 >>= fun y =>
      pure ((x.1, y.1), y.2)) := rfl
  rw [seq, hf w, hdec]
  rcases c.dec w with e | ⟨a, w1⟩
  · rfl
  · change g w1 = _
    rw [hg w1]
    exact (left_of_bind (d.dec w1) (a, ·)).symm

lemma frames_iso {f : Frame} {c : Codec ε α} (hf : Frames f c) (e : α ≃ β) :
    Frames f (c.iso e) := by
  intro w
  have hdec : (c.iso e).dec w = (c.dec w >>= fun x => pure (e x.1, x.2)) := rfl
  rw [hf w, hdec]
  exact (left_of_bind (c.dec w) e).symm

/-- By induction on the number of values. -/
lemma times_eq {f : Frame} {c : Codec ε α} (hf : Frames f c) (n : ℕ) (w : Bytes) :
    times f n w = ((c.decVec n w).toOption).map Prod.snd := by
  induction n generalizing w with
  | zero => rfl
  | succ n ih =>
    have hdec : c.decVec (n + 1) w = (c.dec w >>= fun x => c.decVec n x.2 >>= fun y =>
        pure (x.1 ::ᵥ y.1, y.2)) := rfl
    rw [times, seq, hf w, hdec]
    rcases c.dec w with e | ⟨a, w1⟩
    · rfl
    · change times f n w1 = _
      rw [ih w1]
      exact (left_of_bind (c.decVec n w1) (a ::ᵥ ·)).symm

lemma frames_fixed {f : Frame} {c : Codec ε α} (hf : Frames f c) (n : ℕ) :
    Frames (times f n) (c.fixed n) := times_eq hf n

/-- Two skips of bytes are one. -/
lemma seq_bytes (m n : ℕ) : seq (bytes m) (bytes n) = bytes (m + n) := by
  funext w
  unfold seq bytes
  by_cases hm : m ≤ w.length
  · rw [if_pos hm, Option.bind_some, List.length_drop, List.drop_drop]
    by_cases hn : n ≤ w.length - m
    · rw [if_pos hn, if_pos (by omega)]
    · rw [if_neg hn, if_neg (by omega)]
  · rw [if_neg hm, if_neg (by omega)]
    rfl

lemma times_bytes (n : ℕ) : times (bytes 1) n = bytes n := by
  induction n with
  | zero =>
    funext w
    simp [times, bytes]
  | succ n ih => rw [times, ih, seq_bytes, Nat.add_comm]

/-- A byte array is skipped in one step. -/
lemma frames_byteArray (eof : ε) (n : ℕ) : Frames (bytes n) ((Codec.byte eof).fixed n) := by
  rw [← times_bytes]
  exact frames_fixed (frames_byte eof) n

lemma frames_counted {f : Frame} {c : Codec ε α} (hf : Frames f c) (len : Codec ε ℕ) :
    Frames (counted (fun w => (len.dec w).toOption) f) (Codec.counted len c) := by
  intro w
  have hdec : (Codec.counted len c).dec w = (len.dec w >>= fun x => c.decVec x.1 x.2 >>= fun y =>
      pure (y.1.toList, y.2)) := rfl
  rw [counted, hdec]
  rcases len.dec w with e | ⟨n, w1⟩
  · rfl
  · change times f n w1 = _
    rw [times_eq hf n w1]
    exact (left_of_bind (c.decVec n w1) List.Vector.toList).symm

end SvmWasiCore.Lib.Framing
