import SvmWasiCore.TokenState

/-!
Mints against token accounts.

Both parsers cut their input to a base layout, so neither reads what tells the two kinds apart:
the length and the account-type byte. Left are option tags, a flag and a state byte. Those of a
mint lie inside the two keys a token account begins with, and anyone may choose these.
-/

namespace SvmWasiCore.AccountKinds

open Lib.ByteCodec Lib.LittleEndian TokenState

/-- The tag of an option. -/
def IsTag (tag : UInt32) : Prop := tag = 0 ∨ tag = 1

instance (tag : UInt32) : Decidable (IsTag tag) := inferInstanceAs (Decidable (_ ∨ _))

lemma exists_unpackCoptionKey_iff (w : Bytes) (i : ℕ) :
    (∃ key, unpackCoptionKey w i = .ok key) ↔ IsTag (u32At w i) := by
  unfold unpackCoptionKey IsTag
  split
  · next h => simp [h]
  · next h => simp [h]
  · next h0 h1 =>
    refine iff_of_false (by simp) ?_
    intro h
    exact h.elim h0 h1

lemma base_eq_take (n : ℕ) (data : Bytes) : data.take (min n data.length) = data.take n := by
  rcases Nat.le_total n data.length with h | h
  · rw [Nat.min_eq_left h]
  · rw [Nat.min_eq_right h, List.take_length, List.take_of_length_le h]

/-- The base layout of `n` bytes is there when the input has that many. -/
lemma take_length_eq_iff (n : ℕ) (data : Bytes) : (data.take n).length = n ↔ n ≤ data.length := by
  rw [List.length_take]
  omega

/-- What both `Pack::unpack`s do: check the length, read the fields, check the flag. -/
lemma pack_unpack_eq_ok_iff {α : Type} {p : Prop} [Decidable p] {q : α → Prop} [DecidablePred q]
    {x : Except ProgramError α} {e e' : ProgramError} {a : α} :
    (do
      if p then
        throw e
      let value ← x
      if q value then return value else throw e') = .ok a ↔ ¬p ∧ x = .ok a ∧ q a := by
  by_cases hp : p
  · rw [if_pos hp]
    exact iff_of_false (fun h => by cases h) fun h => h.1 hp
  · rw [if_neg hp, and_iff_right hp, bind_eq_ok]
    refine ⟨fun h => ?_, fun h => ?_⟩
    · obtain ⟨value, hx, h⟩ := h
      split_ifs at h with hq
      · obtain rfl := Except.ok.inj h
        exact ⟨hx, hq⟩
    · obtain ⟨hx, hq⟩ := h
      exact ⟨a, hx, if_pos hq⟩

/-! ### Mints -/

lemma mint_unpack_eq_ok_iff {input : Bytes} {m : Mint} : Mint.unpack input = .ok m ↔
    input.length = Mint.LEN ∧ Mint.unpackFromSlice input = .ok m ∧ m.isInitialized = true := by
  rw [← not_not (a := input.length = Mint.LEN)]
  exact pack_unpack_eq_ok_iff

lemma exists_initialized_iff (src : Bytes) :
    (∃ m, Mint.unpackFromSlice src = .ok m ∧ m.isInitialized = true) ↔
      IsTag (u32At src 0) ∧ src.getD 45 0 = 1 ∧ IsTag (u32At src 46) := by
  rw [← exists_unpackCoptionKey_iff, ← exists_unpackCoptionKey_iff]
  refine ⟨fun h => ?_, fun h => ?_⟩
  · obtain ⟨m, h, hinit⟩ := h
    obtain ⟨mintAuthority, hmint, h⟩ := bind_eq_ok.mp h
    split at h
    · obtain ⟨isInitialized, hflag, h⟩ := bind_eq_ok.mp h
      obtain ⟨freezeAuthority, -, h⟩ := bind_eq_ok.mp h
      obtain rfl := Except.ok.inj hflag
      obtain rfl := Except.ok.inj h
      cases hinit
    · next hbyte =>
      obtain ⟨isInitialized, -, h⟩ := bind_eq_ok.mp h
      obtain ⟨freezeAuthority, hfreeze, -⟩ := bind_eq_ok.mp h
      exact ⟨⟨_, hmint⟩, hbyte, _, hfreeze⟩
    · cases h
  · obtain ⟨⟨mintAuthority, hmint⟩, hbyte, freezeAuthority, hfreeze⟩ := h
    refine ⟨⟨mintAuthority, u64At src 36, src.getD 44 0, true, freezeAuthority⟩, ?_, rfl⟩
    unfold Mint.unpackFromSlice
    rw [hmint, hbyte, hfreeze]
    rfl

/-- What an initialized mint is recognised by. -/
lemma exists_unpackMint_iff (data : Bytes) : (∃ m, unpackMint data = .ok m) ↔
    Mint.LEN ≤ data.length ∧ IsTag (u32At data 0) ∧ data.getD 45 0 = 1 ∧
      IsTag (u32At data 46) := by
  simp only [unpackMint, mapError_eq_ok_iff, base_eq_take, mint_unpack_eq_ok_iff,
    take_length_eq_iff, exists_and_left, exists_initialized_iff]
  rw [u32At_take data (by decide), getD_take data (by decide), u32At_take data (by decide)]

/-! ### Token accounts -/

lemma tokenAccount_unpack_eq_ok_iff {input : Bytes} {a : TokenAccount} :
    TokenAccount.unpack input = .ok a ↔ input.length = TokenAccount.LEN ∧
      TokenAccount.unpackFromSlice input = .ok a ∧ a.state ≠ .uninitialized := by
  rw [← not_not (a := input.length = TokenAccount.LEN)]
  exact pack_unpack_eq_ok_iff

/-- Where an unpacked account's keys and its state come from. -/
lemma unpackFromSlice_fields {src : Bytes} {a : TokenAccount}
    (h : TokenAccount.unpackFromSlice src = .ok a) : a.mint = pubkeyAt src 0 ∧
      a.owner = pubkeyAt src 32 ∧ AccountState.tryFromPrimitive (src.getD 108 0) = .ok a.state := by
  obtain ⟨delegate, -, h⟩ := bind_eq_ok.mp h
  obtain ⟨state, hstate, h⟩ := bind_eq_ok.mp h
  obtain ⟨isNative, -, h⟩ := bind_eq_ok.mp h
  obtain ⟨closeAuthority, -, h⟩ := bind_eq_ok.mp h
  obtain rfl := Except.ok.inj h
  exact ⟨rfl, rfl, hstate⟩

lemma unpackTokenAccount_eq_ok_iff {data : Bytes} {a : TokenAccount} :
    unpackTokenAccount data = .ok a ↔ TokenAccount.LEN ≤ data.length ∧
      TokenAccount.unpackFromSlice (data.take TokenAccount.LEN) = .ok a ∧
        a.state ≠ .uninitialized := by
  rw [unpackTokenAccount, mapError_eq_ok_iff, base_eq_take, tokenAccount_unpack_eq_ok_iff,
    take_length_eq_iff]

/-- The bytes of an account's two keys that a mint has its tags and its flag in. -/
structure MintLike (a : TokenAccount) : Prop where
  mintAuthority : IsTag (u32At a.mint.bytes.toList 0)
  isInitialized : a.owner.bytes.toList.getD 13 0 = 1
  freezeAuthority : IsTag (u32At a.owner.bytes.toList 14)

/-- An initialized token account reads as a mint when its keys say so. -/
lemma exists_unpackMint_iff_mintLike {data : Bytes} {a : TokenAccount}
    (h : unpackTokenAccount data = .ok a) : (∃ m, unpackMint data = .ok m) ↔ MintLike a := by
  obtain ⟨hlen, hslice, -⟩ := unpackTokenAccount_eq_ok_iff.mp h
  obtain ⟨hmint, howner, -⟩ := unpackFromSlice_fields hslice
  have hmintTag : u32At a.mint.bytes.toList 0 = u32At data 0 := by
    rw [hmint, pubkeyAt, u32At_array _ _ (by decide), u32At_take data (by decide)]
  have hflag : a.owner.bytes.toList.getD 13 0 = data.getD 45 0 := by
    rw [howner, pubkeyAt, getD_array _ _ (by decide), getD_take data (by decide)]
  have hownerTag : u32At a.owner.bytes.toList 14 = u32At data 46 := by
    rw [howner, pubkeyAt, u32At_array _ _ (by decide), u32At_take data (by decide)]
  have hlonger : Mint.LEN ≤ data.length := Nat.le_trans (by decide) hlen
  rw [exists_unpackMint_iff, and_iff_right hlonger]
  refine ⟨fun h => ?_, fun h => ?_⟩
  · obtain ⟨h0, h45, h46⟩ := h
    exact ⟨by rwa [hmintTag], by rwa [hflag], by rwa [hownerTag]⟩
  · obtain ⟨h0, h45, h46⟩ := h
    exact ⟨by rwa [← hmintTag], by rwa [← hflag], by rwa [← hownerTag]⟩

/-- What stands between the mint and the account-type byte of an extended mint is zero. -/
lemma padding_of_unpack {data : Bytes} {state : StateWithExtensions}
    (h : StateWithExtensions.unpack data = .ok state) (hlen : Mint.LEN < data.length) :
    (data.drop Mint.LEN).take (BASE_ACCOUNT_LENGTH - Mint.LEN) =
      List.replicate (BASE_ACCOUNT_LENGTH - Mint.LEN) 0 := by
  unfold StateWithExtensions.unpack at h
  split_ifs at h with hsize
  · cases h
  · obtain ⟨base, -, h⟩ := bind_eq_ok.mp h
    obtain ⟨tlvData, htlv, -⟩ := bind_eq_ok.mp h
    have hnil : data.drop Mint.LEN ≠ [] := by
      rw [Ne, List.drop_eq_nil_iff]
      exact Nat.not_le.mpr hlen
    by_contra hne
    simp only [tlvDataOf, if_neg hnil, if_pos hne, ite_self] at htlv
    cases htlv

/-- A mint account as the token programs lay it out is too short for a token account, or has
padding where one has its state. -/
lemma unpackTokenAccount_ne_ok {data : Bytes} {state : StateWithExtensions}
    (h : StateWithExtensions.unpack data = .ok state) (a : TokenAccount) :
    unpackTokenAccount data ≠ .ok a := by
  intro ha
  obtain ⟨hlen, hslice, hstate⟩ := unpackTokenAccount_eq_ok_iff.mp ha
  obtain ⟨-, -, hbyte⟩ := unpackFromSlice_fields hslice
  rw [getD_take data (by decide)] at hbyte
  have hzero : data.getD 108 0 = 0 := by
    have hpadding := padding_of_unpack h (Nat.lt_of_lt_of_le (by decide) hlen)
    have hbyte := congrArg (fun w => w.getD 26 0) hpadding
    simp only [getD_take _ (show 26 < BASE_ACCOUNT_LENGTH - Mint.LEN by decide)] at hbyte
    rw [getD_drop] at hbyte
    exact hbyte
  rw [hzero] at hbyte
  exact hstate (Except.ok.inj hbyte).symm

/-! ### One input for both parsers -/

/-- **Which accounts are taken for both kinds**: the token accounts whose keys have a mint's tags
and flag in the right bytes. An account that is laid out as a mint is never one of them. -/
theorem both_unpack_iff :
    (∀ data, (∃ m a, unpackMint data = .ok m ∧ unpackTokenAccount data = .ok a) ↔
      ∃ a, unpackTokenAccount data = .ok a ∧ MintLike a) ∧
    ∀ data, ¬((∃ state, StateWithExtensions.unpack data = .ok state) ∧
      ∃ a, unpackTokenAccount data = .ok a) := by
  refine ⟨fun data => ⟨fun h => ?_, fun h => ?_⟩, fun data h => ?_⟩
  · obtain ⟨m, a, hm, ha⟩ := h
    exact ⟨a, ha, (exists_unpackMint_iff_mintLike ha).mp ⟨m, hm⟩⟩
  · obtain ⟨a, ha, hlike⟩ := h
    obtain ⟨m, hm⟩ := (exists_unpackMint_iff_mintLike ha).mpr hlike
    exact ⟨m, a, hm, ha⟩
  · obtain ⟨⟨state, hstate⟩, a, ha⟩ := h
    exact unpackTokenAccount_ne_ok hstate a ha

/-- An initialized token account of the zero mint; its owner's key has a one in byte 13. -/
def confusedAccount : Bytes :=
  List.replicate 45 0 ++ [1] ++ List.replicate 62 0 ++ [1] ++ List.replicate 56 0

set_option maxRecDepth 4000 in
theorem confused_unpacks_twice :
    ∃ m a, unpackMint confusedAccount = .ok m ∧ unpackTokenAccount confusedAccount = .ok a :=
  ⟨_, _, rfl, rfl⟩

end SvmWasiCore.AccountKinds
