import SvmWasiCore.HostPrograms
import SvmWasiCore.ScalarHex

/-!
The setup of a stealth meta-address: the one program that shows private scalars in plaintext.

What it shows is what the signer of a sweep is given later, typed in by hand.
-/

namespace SvmWasiCore.MetaAddress

open Rpc Dalek Stealth ScalarHex HostPrograms Lib Lib.ByteCodec Lib.LittleEndian Lib.Interaction

/-- `Scalar::from_bytes_mod_order_wide`. -/
def fromBytesModOrderWide (bytes : List.Vector UInt8 64) : Scalar := (ofLe bytes.toList : Scalar)

section
variable {P : Type} [AddCommGroup P] (E : Ed25519 P)

/-- `ephemeral_keypair` is another name for this. -/
def generateKeypair : Script (Scalar × Pubkey) := do
  let scalar := fromBytesModOrderWide (← random 64)
  let point := E.mulBase scalar
  return (scalar, toPubkey E point)

/-- What is shown of the two keypairs. -/
def sheet (scan spend : Scalar × Pubkey) : List String :=
  [s!"scan_privkey  = {scalarToHex scan.1}",
    s!"scan_pubkey   = {toBase58 scan.2}",
    s!"spend_privkey = {scalarToHex spend.1}",
    s!"spend_pubkey  = {toBase58 spend.2}",
    "",
    "Copy scan_privkey and spend_privkey into your own secure storage now.",
    "This is the only time either will ever be shown in plaintext.",
    "scan_pubkey/spend_pubkey are public — safe to publish as your meta-address."]

def main : Script PUnit := do
  let scan ← generateKeypair E
  let spend ← generateKeypair E
  printAll .stdout (sheet scan spend)

end

/-! ### What is copied down -/

/-- No digit of a scalar's text is whitespace. -/
lemma isWhitespace_of_isDigit {c : Char} (h : Hex.IsDigit c) : isWhitespace c = false := by
  have hall : ∀ n < 128, Hex.IsDigit (.ofNat n) → isWhitespace (.ofNat n) = false := by
    decide +kernel
  have hc := hall c.toNat (Hex.isDigit_lt h)
  rw [Char.ofNat_toNat] at hc
  exact hc h

/-- A scalar's text is read back, whatever whitespace is typed around it. -/
lemma scalarFromHex_of_padded {display : Hex.FromHexError → String} {x : Scalar} {line : String}
    (h : Padded (scalarToHex x) line) : scalarFromHex display (trim line) = .ok x := by
  rw [h.trim_eq, scalarFromHex_scalarToHex]
  intro c hc
  rw [scalarToHex, Hex.encode, String.toList_ofList] at hc
  exact isWhitespace_of_isDigit (Hex.isDigit_encodeChars _ c hc)

variable {P : Type} [AddCommGroup P] {E : Ed25519 P} {tr : Trace} {o : Except Stop PUnit}

/-- Each label stands on one line of the sheet. -/
lemma mem_sheet (scan spend : Scalar × Pubkey) (text : String) :
    ("scan_privkey  = " ++ text ∈ sheet scan spend ↔ text = scalarToHex scan.1) ∧
    ("scan_pubkey   = " ++ text ∈ sheet scan spend ↔ text = toBase58 scan.2) ∧
    ("spend_privkey = " ++ text ∈ sheet scan spend ↔ text = scalarToHex spend.1) ∧
    ("spend_pubkey  = " ++ text ∈ sheet scan spend ↔ text = toBase58 spend.2) := by
  have htoString (x : String) : toString x = x := rfl
  simp only [sheet, htoString, List.mem_cons, List.not_mem_nil, ← String.toList_inj]
  refine ⟨?_, ?_, ?_, ?_⟩ <;> simp

/-- A keypair is drawn, unless that is refused, and nothing is shown. -/
lemma ends_generateKeypair_bind {α : Type} {f : Scalar × Pubkey → Script α} {o : Except Stop α}
    (h : Ends (generateKeypair E >>= f) tr o) :
    (∃ v tr', (∀ text, Shown tr text ↔ Shown tr' text) ∧
      Ends (f (v, toPubkey E (E.mulBase v))) tr' o) ∨
    (∀ text, ¬Shown tr text) ∧ ∃ e, o = .error e := by
  rw [generateKeypair, bind_assoc] at h
  rcases ends_stdCall_bind_iff.mp h with ⟨b, tr', htr, h⟩ | ⟨msg, htr, ho⟩
  · rw [pure_bind] at h
    exact .inl ⟨fromBytesModOrderWide b, tr', by simp [htr, Shown], h⟩
  · exact .inr ⟨by simp [htr, Shown], _, ho⟩

/-- A run shows nothing but two scalars with their points, and all of that if it ends. -/
lemma main_shows (h : Ends (main E) tr o) : ∃ v s : Scalar,
    (∀ text, Shown tr text →
      text ∈ sheet (v, toPubkey E (E.mulBase v)) (s, toPubkey E (E.mulBase s))) ∧
    (o = .ok () → ∀ text ∈ sheet (v, toPubkey E (E.mulBase v)) (s, toPubkey E (E.mulBase s)),
      Shown tr text) := by
  rcases ends_generateKeypair_bind h with ⟨v, tr₁, hshown₁, h⟩ | ⟨hnone, e, ho⟩
  · rcases ends_generateKeypair_bind h with ⟨s, tr₂, hshown₂, h⟩ | ⟨hnone, e, ho⟩
    · simp only [hshown₁, hshown₂]
      exact ⟨v, s, shown_printAll h⟩
    · rw [ho]
      exact ⟨0, 0, fun text htext => (hnone text ((hshown₁ text).mp htext)).elim, nofun⟩
  · rw [ho]
    exact ⟨0, 0, fun text htext => (hnone text htext).elim, nofun⟩

variable (E) in
/-- What the sheet of a meta-address says: under the labels of the private scalars only texts that
are read back, typed with any whitespace around them, and under those of the pubkeys only theirs. -/
structure Copied (texts : HostTexts) (tr : Trace) (v s : Scalar) : Prop where
  scanPriv : ∀ text, Shown tr ("scan_privkey  = " ++ text) → ∀ line, Padded text line →
    scalarFromHex texts.hexError (trim line) = .ok v
  spendPriv : ∀ text, Shown tr ("spend_privkey = " ++ text) → ∀ line, Padded text line →
    scalarFromHex texts.hexError (trim line) = .ok s
  scanPub : ∀ pk, Shown tr ("scan_pubkey   = " ++ toBase58 pk) → pk = toPubkey E (E.mulBase v)
  spendPub : ∀ pk, Shown tr ("spend_pubkey  = " ++ toBase58 pk) → pk = toPubkey E (E.mulBase s)

/-- **What the setup shows is one meta-address.** Whatever is copied from its output is read as the
scalars behind the two pubkeys shown, and no other pubkey is shown; a run that comes to its end
shows all four. -/
lemma copied_of_main (texts : HostTexts) (h : Ends (main E) tr o) :
    ∃ v s, Copied E texts tr v s ∧ (o = .ok () →
      Shown tr ("scan_privkey  = " ++ scalarToHex v) ∧
      Shown tr ("scan_pubkey   = " ++ toBase58 (toPubkey E (E.mulBase v))) ∧
      Shown tr ("spend_privkey = " ++ scalarToHex s) ∧
      Shown tr ("spend_pubkey  = " ++ toBase58 (toPubkey E (E.mulBase s)))) := by
  obtain ⟨v, s, honly, hall⟩ := main_shows h
  have hsheet := mem_sheet (v, toPubkey E (E.mulBase v)) (s, toPubkey E (E.mulBase s))
  refine ⟨v, s, ⟨fun text htext line hline => ?_, fun text htext line hline => ?_,
    fun pk hpk => ?_, fun pk hpk => ?_⟩, fun ho => ⟨?_, ?_, ?_, ?_⟩⟩
  · rw [(hsheet text).1.mp (honly _ htext)] at hline
    exact scalarFromHex_of_padded hline
  · rw [(hsheet text).2.2.1.mp (honly _ htext)] at hline
    exact scalarFromHex_of_padded hline
  · exact RpcMethods.toBase58_injective ((hsheet _).2.1.mp (honly _ hpk))
  · exact RpcMethods.toBase58_injective ((hsheet _).2.2.2.mp (honly _ hpk))
  · exact hall ho _ ((hsheet _).1.mpr rfl)
  · exact hall ho _ ((hsheet _).2.1.mpr rfl)
  · exact hall ho _ ((hsheet _).2.2.1.mpr rfl)
  · exact hall ho _ ((hsheet _).2.2.2.mpr rfl)

end SvmWasiCore.MetaAddress
