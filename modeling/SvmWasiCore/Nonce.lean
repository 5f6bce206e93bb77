import SvmWasiCore.Fields

/-!
Durable-nonce accounts: the state `solana-nonce` keeps in them, and the blockhash to spend one.

Both enums are tagged with a little-endian `u32`, and bincode lets anything follow the account.
-/

namespace SvmWasiCore.Nonce

open Lib.ByteCodec Lib.LittleEndian Lib.FixedWidth Fields

/-- Why bincode refuses account data. -/
inductive DecodeError
  | unexpectedEof
  | unknownVariant (tag : UInt32)
  deriving DecidableEq

inductive NonceError
  | decode (e : DecodeError)
  deriving DecidableEq

structure DurableNonce where
  hash : Hash
  deriving DecidableEq

structure FeeCalculator where
  lamportsPerSignature : UInt64
  deriving DecidableEq

structure NonceData where
  authority : Pubkey
  durableNonce : DurableNonce
  feeCalculator : FeeCalculator
  deriving DecidableEq

inductive NonceState
  | uninitialized
  | initialized (data : NonceData)
  deriving DecidableEq

/-- `Versions` of upstream. -/
inductive NonceAccount
  | legacy (state : NonceState)
  | current (state : NonceState)
  deriving DecidableEq

def NonceData.new (authority : Pubkey) (durableNonce : DurableNonce)
    (lamportsPerSignature : UInt64) : NonceData := ⟨authority, durableNonce, ⟨lamportsPerSignature⟩⟩

def NonceData.blockhash (data : NonceData) : Hash := data.durableNonce.hash

def NonceAccount.new (state : NonceState) : NonceAccount := .current state

/-- The nonce is hashed into a domain of its own. -/
def DurableNonce.fromBlockhash (sha256 : Bytes → List.Vector UInt8 32) (blockhash : Hash) :
    DurableNonce := ⟨⟨sha256 (byteString "DURABLE_NONCE" ++ blockhash.bytes.toList)⟩⟩

/-! ### Encodings -/

def nonceDataCodec : Codec DecodeError NonceData :=
  ((keyField .unexpectedEof).seq ((hashField .unexpectedEof).seq (u64Field .unexpectedEof))).iso
    ⟨fun x => ⟨x.1, ⟨x.2.1⟩, ⟨x.2.2⟩⟩, fun d => (d.1, d.2.1, d.3.1), fun _ => rfl, fun _ => rfl⟩

def tag : Codec DecodeError UInt32 := u32Field .unexpectedEof

def nonceStateEquiv : Unit ⊕ NonceData ≃ NonceState where
  toFun
    | .inl _ => .uninitialized
    | .inr data => .initialized data
  invFun
    | .uninitialized => .inl ()
    | .initialized data => .inr data
  left_inv x := by cases x <;> rfl
  right_inv s := by cases s <;> rfl

def nonceStateCodec : Codec DecodeError NonceState :=
  (Codec.either tag .unknownVariant .nothing nonceDataCodec).iso nonceStateEquiv

def nonceAccountEquiv : NonceState ⊕ NonceState ≃ NonceAccount where
  toFun
    | .inl state => .legacy state
    | .inr state => .current state
  invFun
    | .legacy state => .inl state
    | .current state => .inr state
  left_inv x := by cases x <;> rfl
  right_inv a := by cases a <;> rfl

def nonceAccountCodec : Codec DecodeError NonceAccount :=
  (Codec.either tag .unknownVariant nonceStateCodec nonceStateCodec).iso nonceAccountEquiv

/-! ### The three functions -/

def parseNonceAccount (data : Bytes) : Except NonceError NonceAccount :=
  match nonceAccountCodec.dec data with
  | .error e => .error (.decode e)
  | .ok (account, _) => .ok account

/-- No `Legacy` account is usable, whatever its state. -/
def usableBlockhash : NonceAccount → Option Hash
  | .current (.initialized data) => some data.blockhash
  | .current .uninitialized => none
  | .legacy _ => none

def encodeInitializedNonceAccount (sha256 : Bytes → List.Vector UInt8 32) (authority : Pubkey)
    (blockhash : Hash) (lamportsPerSignature : UInt64) : Exec Bytes :=
  let durableNonce := DurableNonce.fromBlockhash sha256 blockhash
  let data := NonceData.new authority durableNonce lamportsPerSignature
  let account := NonceAccount.new (.initialized data)
  expect (nonceAccountCodec.enc account) "nonce account always serializes"

/-! ### Where the fields stand -/

def nonceDataAt (w : Bytes) (i : ℕ) : NonceData :=
  ⟨⟨array 32 w i⟩, ⟨⟨array 32 w (i + 32)⟩⟩, ⟨u64At w (i + 64)⟩⟩

/-- The state that stands at offset `i`, behind its tag. -/
def StateAt (w : Bytes) (i : ℕ) (state : NonceState) : Prop :=
  (u32At w i = 0 ∧ state = .uninitialized) ∨
    (u32At w i = 1 ∧ i + 76 ≤ w.length ∧ state = .initialized (nonceDataAt w (i + 4)))

lemma reads_nonceData : Reads nonceDataCodec 72 fun w => nonceDataAt w 0 := by
  have h := reads_iso (reads_seq (reads_keyField DecodeError.unexpectedEof)
    (reads_seq (reads_hashField .unexpectedEof) (reads_u64Field .unexpectedEof)))
    (⟨fun x => ⟨x.1, ⟨x.2.1⟩, ⟨x.2.2⟩⟩, fun d => (d.1, d.2.1, d.3.1), fun _ => rfl, fun _ => rfl⟩ :
      Pubkey × Hash × UInt64 ≃ NonceData)
  refine fun w data rest => (h w data rest).trans ?_
  simp [nonceDataAt, array_drop, u64At]

lemma nonceDataAt_drop (w : Bytes) (i j : ℕ) :
    nonceDataAt (w.drop i) j = nonceDataAt w (i + j) := by
  simp [nonceDataAt, array_drop, u64At, Nat.add_assoc]

lemma nonceState_dec_iff {w : Bytes} {state : NonceState} :
    (∃ rest, nonceStateCodec.dec w = .ok (state, rest)) ↔ 4 ≤ w.length ∧ StateAt w 0 state := by
  have htag := reads_u32Field DecodeError.unexpectedEof w
  simp only [nonceStateCodec, Codec.iso_dec_eq_ok_iff]
  refine ⟨fun h => ?_, fun h => ?_⟩
  · obtain ⟨rest, h⟩ := h
    obtain ⟨t, w', ht, h⟩ := Codec.decEither_eq_ok_iff.mp h
    obtain ⟨hlen, rfl, rfl⟩ := (htag _ _).mp ht
    refine ⟨hlen, ?_⟩
    rcases h with ⟨h0, a, hstate, -⟩ | ⟨h1, data, hstate, hdec⟩
    · exact .inl ⟨h0, nonceStateEquiv.symm_apply_eq.mp hstate⟩
    · obtain ⟨hdata, rfl, -⟩ := (reads_nonceData _ _ _).mp hdec
      rw [List.length_drop] at hdata
      beta_reduce at hstate
      rw [nonceDataAt_drop] at hstate
      exact .inr ⟨h1, by omega, nonceStateEquiv.symm_apply_eq.mp hstate⟩
  · obtain ⟨hlen, ⟨h0, rfl⟩ | ⟨h1, hdata, rfl⟩⟩ := h
    · exact ⟨w.drop 4, Codec.decEither_eq_ok_iff.mpr
        ⟨0, w.drop 4, (htag _ _).mpr ⟨hlen, h0.symm, rfl⟩, .inl ⟨rfl, (), rfl, rfl⟩⟩⟩
    · have hdec := reads_nonceData.dec_eq (w := w.drop 4) (by rw [List.length_drop]; omega)
      rw [nonceDataAt_drop] at hdec
      exact ⟨_, Codec.decEither_eq_ok_iff.mpr
        ⟨1, w.drop 4, (htag _ _).mpr ⟨hlen, h1.symm, rfl⟩, .inr ⟨rfl, _, rfl, hdec⟩⟩⟩

lemma parse_eq_ok_iff {b : Bytes} {account : NonceAccount} :
    parseNonceAccount b = .ok account ↔ ∃ rest, nonceAccountCodec.dec b = .ok (account, rest) := by
  unfold parseNonceAccount
  rcases nonceAccountCodec.dec b with e | ⟨account', rest⟩ <;> simp

lemma stateAt_drop {b : Bytes} (hlen : 4 ≤ b.length) {state : NonceState} :
    StateAt (b.drop 4) 0 state ↔ StateAt b 4 state := by
  unfold StateAt
  rw [nonceDataAt_drop, List.length_drop, u32At, u32At, array_drop]
  have hroom : 0 + 76 ≤ b.length - 4 ↔ 4 + 76 ≤ b.length := by omega
  rw [hroom]

/-- What account data parses to: the version's tag, then the state. -/
lemma parse_eq_ok_iff_stateAt {b : Bytes} {account : NonceAccount} :
    parseNonceAccount b = .ok account ↔ 8 ≤ b.length ∧ ∃ state, StateAt b 4 state ∧
      ((u32At b 0 = 0 ∧ account = .legacy state) ∨ (u32At b 0 = 1 ∧ account = .current state)) := by
  have htag := reads_u32Field DecodeError.unexpectedEof b
  simp only [parse_eq_ok_iff, nonceAccountCodec, Codec.iso_dec_eq_ok_iff]
  refine ⟨fun h => ?_, fun h => ?_⟩
  · obtain ⟨rest, h⟩ := h
    obtain ⟨t, w', ht, h⟩ := Codec.decEither_eq_ok_iff.mp h
    obtain ⟨hlen, rfl, rfl⟩ := (htag _ _).mp ht
    rcases h with ⟨h0, state, haccount, hdec⟩ | ⟨h1, state, haccount, hdec⟩
    all_goals
      obtain ⟨hlen', hstate⟩ := nonceState_dec_iff.mp ⟨_, hdec⟩
      rw [List.length_drop] at hlen'
      rw [stateAt_drop hlen] at hstate
      refine ⟨by omega, state, hstate, ?_⟩
    · exact .inl ⟨h0, nonceAccountEquiv.symm_apply_eq.mp haccount⟩
    · exact .inr ⟨h1, nonceAccountEquiv.symm_apply_eq.mp haccount⟩
  · obtain ⟨hlen, state, hstate, h⟩ := h
    rw [← stateAt_drop (by omega)] at hstate
    obtain ⟨rest, hdec⟩ := nonceState_dec_iff.mpr ⟨by rw [List.length_drop]; omega, hstate⟩
    rcases h with ⟨h0, rfl⟩ | ⟨h1, rfl⟩
    · exact ⟨rest, Codec.decEither_eq_ok_iff.mpr
        ⟨0, b.drop 4, (htag _ _).mpr ⟨by omega, h0.symm, rfl⟩, .inl ⟨rfl, state, rfl, hdec⟩⟩⟩
    · exact ⟨rest, Codec.decEither_eq_ok_iff.mpr
        ⟨1, b.drop 4, (htag _ _).mpr ⟨by omega, h1.symm, rfl⟩, .inr ⟨rfl, state, rfl, hdec⟩⟩⟩

/-! ### On the bytes themselves -/

/-- `w[i..j]`. -/
def slice (w : Bytes) (i j : ℕ) : Bytes := (w.drop i).take (j - i)

/-- The account can be spent with the blockhash: a current version, an initialized state, and the
hash in its place. -/
structure Spendable (b : Bytes) (h : Hash) : Prop where
  length : 80 ≤ b.length
  version : ofLe (slice b 0 4) = 1
  state : ofLe (slice b 4 8) = 1
  hash : slice b 40 72 = h.bytes.toList

/-- Cut short, or a tag no variant has. -/
def Malformed (b : Bytes) : Prop :=
  b.length < 8 ∨ 1 < ofLe (slice b 0 4) ∨ 1 < ofLe (slice b 4 8) ∨
    (ofLe (slice b 4 8) = 1 ∧ b.length < 80)

lemma u32At_eq_iff {b : Bytes} {i j : ℕ} (hj : j = i + 4) (h : j ≤ b.length) (n : UInt32) :
    u32At b i = n ↔ ofLe (slice b i j) = n.toNat := by
  subst hj
  have hlt : ofLe (array 4 b i).toList < UInt32.size := by
    have hlt := ofLe_lt (array 4 b i).toList
    rwa [List.Vector.toList_length] at hlt
  rw [slice, Nat.add_sub_cancel_left, ← toList_array b h, u32At, ← UInt32.toNat_inj,
    UInt32.toNat_ofNat_of_lt' hlt]

lemma spendable_iff (b : Bytes) (h : Hash) :
    (∃ account, parseNonceAccount b = .ok account ∧ usableBlockhash account = some h) ↔
      Spendable b h := by
  refine ⟨fun hp => ?_, fun hs => ?_⟩
  · obtain ⟨account, hparse, husable⟩ := hp
    obtain ⟨hlen, state, hstate, ⟨-, rfl⟩ | ⟨hversion, rfl⟩⟩ := parse_eq_ok_iff_stateAt.mp hparse
    · cases husable
    · rcases hstate with ⟨-, rfl⟩ | ⟨htag, hroom, rfl⟩
      · cases husable
      · obtain rfl := Option.some.inj husable
        refine ⟨by omega, (u32At_eq_iff rfl (by omega) 1).mp hversion,
          (u32At_eq_iff rfl (by omega) 1).mp htag, ?_⟩
        exact (toList_array b (by omega)).symm
  · obtain ⟨hlen, hversion, htag, hhash⟩ := hs
    refine ⟨.current (.initialized (nonceDataAt b 8)), ?_, ?_⟩
    · refine parse_eq_ok_iff_stateAt.mpr ⟨by omega, _, .inr ⟨?_, by omega, rfl⟩, .inr ⟨?_, rfl⟩⟩
      · exact (u32At_eq_iff rfl (by omega) 1).mpr htag
      · exact (u32At_eq_iff rfl (by omega) 1).mpr hversion
    · obtain ⟨bytes⟩ := h
      have hread : array 32 b 40 = bytes :=
        List.Vector.eq _ _ ((toList_array b (by omega)).trans hhash)
      rw [← hread]
      rfl

lemma malformed_iff (b : Bytes) : (∃ e, parseNonceAccount b = .error e) ↔ Malformed b := by
  have hok : (∃ e, parseNonceAccount b = .error e) ↔
      ¬∃ account, parseNonceAccount b = .ok account := by
    rcases parseNonceAccount b with e | account <;> simp
  rw [hok, Malformed]
  rcases Nat.lt_or_ge b.length 8 with hshort | hlen
  · refine iff_of_true ?_ (.inl hshort)
    rintro ⟨account, h⟩
    exact absurd (parse_eq_ok_iff_stateAt.mp h).1 (Nat.not_le.mpr hshort)
  · have hversion := u32At_eq_iff (b := b) (i := 0) (j := 4) rfl (by omega)
    have htag := u32At_eq_iff (b := b) (i := 4) (j := 8) rfl (by omega)
    have h0 : (0 : UInt32).toNat = 0 := rfl
    have h1 : (1 : UInt32).toNat = 1 := rfl
    refine ⟨fun h => ?_, fun h => ?_⟩
    · by_contra hwell
      refine h ?_
      have hversions : u32At b 0 = 0 ∨ u32At b 0 = 1 := by
        rw [hversion, hversion]
        omega
      have hstates : ∃ state, StateAt b 4 state := by
        by_cases hzero : ofLe (slice b 4 8) = 0
        · exact ⟨_, .inl ⟨(htag 0).mpr hzero, rfl⟩⟩
        · exact ⟨_, .inr ⟨(htag 1).mpr (by omega), by omega, rfl⟩⟩
      obtain ⟨state, hstate⟩ := hstates
      rcases hversions with hv | hv
      · exact ⟨_, parse_eq_ok_iff_stateAt.mpr ⟨hlen, state, hstate, .inl ⟨hv, rfl⟩⟩⟩
      · exact ⟨_, parse_eq_ok_iff_stateAt.mpr ⟨hlen, state, hstate, .inr ⟨hv, rfl⟩⟩⟩
    · rintro ⟨account, hparse⟩
      obtain ⟨-, state, hstate, hv⟩ := parse_eq_ok_iff_stateAt.mp hparse
      rw [hversion, hversion] at hv
      unfold StateAt at hstate
      rw [htag, htag] at hstate
      omega

/-- What stands behind an account does not matter. -/
lemma parse_append {b : Bytes} {account : NonceAccount} (pad : Bytes)
    (h : parseNonceAccount b = .ok account) : parseNonceAccount (b ++ pad) = .ok account := by
  obtain ⟨rest, hdec⟩ := parse_eq_ok_iff.mp h
  obtain ⟨p, hp, rfl⟩ := nonceAccountCodec.enc_dec hdec
  rw [List.append_assoc]
  exact parse_eq_ok_iff.mpr ⟨_, nonceAccountCodec.dec_enc hp _⟩

lemma nonceAccount_enc (data : NonceData) :
    nonceAccountCodec.enc (.current (.initialized data)) =
      some ((toLe 4 1).toList ++ ((toLe 4 1).toList ++ (data.authority.bytes.toList ++
        (data.durableNonce.hash.bytes.toList ++
          (toLe 8 data.feeCalculator.lamportsPerSignature.toNat).toList)))) := by
  have hdata : nonceDataCodec.enc data = some (data.authority.bytes.toList ++
      (data.durableNonce.hash.bytes.toList ++
        (toLe 8 data.feeCalculator.lamportsPerSignature.toNat).toList)) := by
    change ((keyField _).seq ((hashField _).seq (u64Field _))).enc (_, _, _) = _
    simp [Codec.seq_enc]
  have hstate : nonceStateCodec.enc (.initialized data) = _ :=
    Codec.seq_enc tag nonceDataCodec (1, data)
  have haccount : nonceAccountCodec.enc (.current (.initialized data)) = _ :=
    Codec.seq_enc tag nonceStateCodec (1, .initialized data)
  rw [haccount, hstate, hdata]
  simp [tag]

/-- **A spendable nonce is read exactly from the bytes that store it**, and nothing that stands
behind them matters; what the encoder writes is such an account. -/
theorem nonce_read_exactly (sha256 : Bytes → List.Vector UInt8 32) :
    (∀ b h, (∃ account, parseNonceAccount b = .ok account ∧ usableBlockhash account = some h) ↔
      Spendable b h) ∧
    (∀ b, (∃ e, parseNonceAccount b = .error e) ↔ Malformed b) ∧
    (∀ b account pad, parseNonceAccount b = .ok account →
      parseNonceAccount (b ++ pad) = .ok account) ∧
    ∀ authority blockhash lamportsPerSignature,
      let durableNonce := DurableNonce.fromBlockhash sha256 blockhash
      let account := NonceAccount.current
        (.initialized ⟨authority, durableNonce, ⟨lamportsPerSignature⟩⟩)
      ∃ b, encodeInitializedNonceAccount sha256 authority blockhash lamportsPerSignature = .ok b ∧
        b.length = 80 ∧ parseNonceAccount b = .ok account ∧
        usableBlockhash account = some durableNonce.hash := by
  refine ⟨spendable_iff, malformed_iff, fun b account pad => parse_append pad, ?_⟩
  intro authority blockhash lamportsPerSignature durableNonce account
  have henc : nonceAccountCodec.enc account = _ := nonceAccount_enc _
  refine ⟨_, expect_eq_ok.mpr henc, by simp, ?_, rfl⟩
  have hdec := nonceAccountCodec.dec_enc henc []
  rw [List.append_nil] at hdec
  exact parse_eq_ok_iff.mpr ⟨_, hdec⟩

end SvmWasiCore.Nonce
