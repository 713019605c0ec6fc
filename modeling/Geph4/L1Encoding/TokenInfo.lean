import Geph4.Core

/-!
# `TokenInfo` and its bincode encoding (`listener.rs:359-382`)

A resume token is `TokenInfo { sess_key: Bytes, init_time_ms: u64, version: u64 }`
serialised by `bincode::serialize` and sealed by `LegacyAEAD::encrypt` under the
listener's `token_key`. bincode 1 with its default options writes integers
fixed-width little-endian, writes a byte string as its length (a `u64`) followed
by the bytes, and reads back through a `SliceReader` that fails when the input
runs out and ignores trailing bytes.

* `getU64_putU64`, `getBytes_putBytes`: each field reads back, whatever follows.
* `deserialize_serialize`: the struct reads back from its encoding.
* `getU64_sound`, `getBytes_sound`, `deserialize_sound`: the converse, whatever
  the reader accepts is an encoding followed by the bytes it leaves.
* `tokenInfo_decrypt_encrypt`: under any `Crypt.Sound` AEAD, every key and every
  `TokenInfo`, `TokenInfo::decrypt(key, TokenInfo::encrypt(ti, key)) = Some(ti)`.
* `tokenInfo_decrypt_eq_some`: for any AEAD, `TokenInfo::decrypt` yields `ti`
  exactly when the plaintext is `ti`'s encoding followed by anything.
-/
namespace Geph4.L1.TokenInfo

def leBytes : Nat → Nat → Bytes
  | 0, _ => []
  | n + 1, v => UInt8.ofNat (v % 256) :: leBytes n (v / 256)

def ofLe : Bytes → Nat
  | [] => 0
  | b :: bs => b.toNat + 256 * ofLe bs

@[simp] theorem leBytes_length (n v : Nat) : (leBytes n v).length = n := by
  induction n generalizing v <;> simp [leBytes, *]

theorem ofLe_leBytes (n v : Nat) : ofLe (leBytes n v) = v % 256 ^ n := by
  induction n generalizing v with
  | zero => simp [leBytes, ofLe, Nat.mod_one]
  | succ n ih =>
    have hb : (UInt8.ofNat (v % 256)).toNat = v % 256 := Nat.mod_eq_of_lt (Nat.mod_lt _ (by omega))
    rw [leBytes, ofLe, ih, hb, Nat.pow_succ', Nat.mod_mul]

theorem leBytes_ofLe (bs : Bytes) : leBytes bs.length (ofLe bs) = bs := by
  induction bs with
  | nil => rfl
  | cons b bs ih =>
    have hb : b.toNat < 256 := b.toNat_lt_size
    rw [List.length_cons, leBytes, ofLe, Nat.add_mul_mod_self_left, Nat.mod_eq_of_lt hb,
      Nat.add_mul_div_left _ _ (by decide), Nat.div_eq_of_lt hb, Nat.zero_add, ih]
    exact congrArg (· :: bs) (UInt8.eq_of_val_eq (Fin.ext (UInt8.toNat_ofNat_of_lt hb)))

theorem ofLe_lt (bs : Bytes) : ofLe bs < 256 ^ bs.length := by
  induction bs with
  | nil => simp [ofLe]
  | cons b bs ih =>
    have hb : b.toNat < 256 := b.toNat_lt_size
    rw [ofLe, List.length_cons, Nat.pow_succ']
    omega

/-- bincode's fixint `serialize_u64`: `v.to_le_bytes()`. -/
def putU64 (v : UInt64) : Bytes := leBytes 8 v.toNat

/-- bincode's `deserialize_u64` on a `SliceReader`: eight bytes, or `UnexpectedEof`. -/
def getU64 (bs : Bytes) : Option (UInt64 × Bytes) :=
  if 8 ≤ bs.length then some (UInt64.ofNat (ofLe (bs.take 8)), bs.drop 8) else none

/-- `serialize_bytes`: the length as a `u64`, then the bytes. -/
def putBytes (b : Bytes) : Bytes := putU64 (UInt64.ofNat b.length) ++ b

/-- `deserialize_byte_buf`: a `u64` length, then that many bytes, or `UnexpectedEof`. -/
def getBytes (bs : Bytes) : Option (Bytes × Bytes) :=
  match getU64 bs with
  | none => none
  | some (n, rest) => if n.toNat ≤ rest.length then some (rest.take n.toNat, rest.drop n.toNat) else none

@[simp] theorem putU64_length (v : UInt64) : (putU64 v).length = 8 := leBytes_length 8 _

theorem getU64_putU64 (v : UInt64) (rest : Bytes) : getU64 (putU64 v ++ rest) = some (v, rest) := by
  have hv : UInt64.ofNat (ofLe (putU64 v)) = v := by
    rw [putU64, ofLe_leBytes, Nat.mod_eq_of_lt (show v.toNat < 256 ^ 8 from v.toNat_lt_size)]
    exact UInt64.eq_of_val_eq (Fin.ext (UInt64.toNat_ofNat_of_lt v.toNat_lt_size))
  rw [getU64, if_pos (by simp), List.take_left' (putU64_length v),
    List.drop_left' (putU64_length v), hv]

theorem uint64_ofNat_toNat (v : UInt64) : UInt64.ofNat v.toNat = v :=
  UInt64.eq_of_val_eq (Fin.ext (UInt64.toNat_ofNat_of_lt v.toNat_lt_size))

theorem getU64_sound {bs rest : Bytes} {v : UInt64} (h : getU64 bs = some (v, rest)) :
    bs = putU64 v ++ rest := by
  unfold getU64 at h
  split_ifs at h with hlen
  cases h
  have h8 : (bs.take 8).length = 8 := List.length_take_of_le hlen
  have hv : (UInt64.ofNat (ofLe (bs.take 8))).toNat = ofLe (bs.take 8) :=
    UInt64.toNat_ofNat_of_lt (by have := ofLe_lt (bs.take 8); rwa [h8] at this)
  have hle := leBytes_ofLe (bs.take 8)
  rw [h8] at hle
  rw [putU64, hv, hle, List.take_append_drop]

theorem getBytes_putBytes (b rest : Bytes) (hb : b.length < 2 ^ 64) :
    getBytes (putBytes b ++ rest) = some (b, rest) := by
  have hn : (UInt64.ofNat b.length).toNat = b.length := UInt64.toNat_ofNat_of_lt hb
  simp only [getBytes, putBytes, List.append_assoc, getU64_putU64, hn, List.length_append,
    Nat.le_add_right, if_true, List.take_left, List.drop_left]

theorem getBytes_sound {bs k rest : Bytes} (h : getBytes bs = some (k, rest)) :
    bs = putBytes k ++ rest := by
  unfold getBytes at h
  split at h
  · cases h
  · rename_i n r hg
    split_ifs at h with hle
    cases h
    rw [putBytes, List.length_take_of_le hle, uint64_ofNat_toNat, List.append_assoc,
      List.take_append_drop, getU64_sound hg]

theorem getBytes_length_lt {bs k r : Bytes} (h : getBytes bs = some (k, r)) : k.length < 2 ^ 64 := by
  unfold getBytes at h
  split at h
  · cases h
  · rename_i n rest _
    split at h
    · cases h
      exact Nat.lt_of_le_of_lt (List.length_take_le _ _) n.toNat_lt_size
    · cases h

end Geph4.L1.TokenInfo

namespace Geph4

open L1.TokenInfo

/-- `struct TokenInfo` (`listener.rs:359-364`). A `Bytes` length is a `usize`,
so `sess_key` is shorter than `2^64` bytes. -/
structure TokenInfo where
  sessKey : Bytes
  initTimeMs : UInt64
  version : UInt64
  sessKey_lt : sessKey.length < 2 ^ 64
  deriving DecidableEq, Repr

namespace TokenInfo

/-- `bincode::serialize(self)`: the fields in declaration order. -/
def serialize (ti : TokenInfo) : Bytes := putBytes ti.sessKey ++ putU64 ti.initTimeMs ++ putU64 ti.version

/-- `bincode::deserialize::<TokenInfo>` (trailing bytes are allowed). -/
def deserialize (bs : Bytes) : Option TokenInfo :=
  match h : getBytes bs with
  | none => none
  | some (k, r1) =>
    match getU64 r1 with
    | none => none
    | some (t, r2) =>
      match getU64 r2 with
      | none => none
      | some (v, _) => some ⟨k, t, v, getBytes_length_lt h⟩

/-- `TokenInfo::encrypt` (`listener.rs:374-381`); `nonce` is the `rng.gen()` draw. -/
def encrypt (C : Crypt) (ti : TokenInfo) (key : Key) (nonce : Nonce) : Bytes :=
  C.encrypt key ti.serialize nonce

/-- `TokenInfo::decrypt` (`listener.rs:367-372`). -/
def decrypt (C : Crypt) (key : Key) (encrypted : Bytes) : Option TokenInfo :=
  (C.decrypt key encrypted).bind deserialize

theorem deserialize_serialize (ti : TokenInfo) (rest : Bytes) :
    deserialize (ti.serialize ++ rest) = some ti := by
  unfold deserialize serialize
  split
  · rename_i h; simp [List.append_assoc, getBytes_putBytes _ _ ti.sessKey_lt] at h
  · rename_i k r1 h
    rw [List.append_assoc, List.append_assoc, getBytes_putBytes _ _ ti.sessKey_lt] at h
    cases h
    simp only [getU64_putU64]

/-- The reader accepts only encodings: what it decodes is a prefix of its input
(`SliceReader` leaves the rest unread). -/
theorem deserialize_sound {bs : Bytes} {ti : TokenInfo} (h : deserialize bs = some ti) :
    ∃ rest, bs = ti.serialize ++ rest := by
  unfold deserialize at h
  split at h
  · cases h
  · rename_i k r1 hk
    split at h
    · cases h
    · rename_i t r2 ht
      split at h
      · cases h
      · rename_i v r3 hv
        cases h
        refine ⟨r3, ?_⟩
        show bs = putBytes k ++ putU64 t ++ putU64 v ++ r3
        rw [getBytes_sound hk, getU64_sound ht, getU64_sound hv]
        simp only [List.append_assoc]

theorem deserialize_eq_some (bs : Bytes) (ti : TokenInfo) :
    deserialize bs = some ti ↔ ∃ rest, bs = ti.serialize ++ rest :=
  ⟨deserialize_sound, fun ⟨rest, h⟩ => h ▸ deserialize_serialize ti rest⟩

example : (⟨[7], 1, 2, by decide⟩ : TokenInfo).serialize =
    [1, 0, 0, 0, 0, 0, 0, 0, 7, 1, 0, 0, 0, 0, 0, 0, 0, 2, 0, 0, 0, 0, 0, 0, 0] := rfl

theorem decrypt_encrypt {C : Crypt} (hC : C.Sound) (key : Key) (ti : TokenInfo) (nonce : Nonce) :
    decrypt C key (encrypt C ti key nonce) = some ti := by
  simpa [decrypt, encrypt, hC key ti.serialize nonce] using deserialize_serialize ti []

end TokenInfo

/-- A resume token opens to the `TokenInfo` it was minted from, for every key,
every `TokenInfo` and every nonce. -/
theorem tokenInfo_decrypt_encrypt (C : Crypt) (hC : C.Sound) (key : Key) (ti : TokenInfo)
    (nonce : Nonce) : TokenInfo.decrypt C key (TokenInfo.encrypt C ti key nonce) = some ti :=
  TokenInfo.decrypt_encrypt hC key ti nonce

theorem tokenInfo_roundtrip_plain :
    Crypt.plain.Sound ∧ TokenInfo.decrypt Crypt.plain [7]
      (TokenInfo.encrypt Crypt.plain ⟨[1, 2, 3], 5, 3, by decide⟩ [7] 0) = some ⟨[1, 2, 3], 5, 3, by decide⟩ :=
  ⟨plain_sound, tokenInfo_decrypt_encrypt Crypt.plain plain_sound [7] _ 0⟩

/-- **A token opens to exactly the infos it encodes.** For any AEAD, any key and
any token, `TokenInfo::decrypt` returns `ti` if and only if the AEAD opens the
token to `ti`'s bincode encoding followed by any trailing bytes: the decoder
never makes up a `TokenInfo` that the plaintext does not begin with. -/
theorem tokenInfo_decrypt_eq_some (C : Crypt) (key : Key) (tok : Bytes) (ti : TokenInfo) :
    TokenInfo.decrypt C key tok = some ti ↔ ∃ rest, C.decrypt key tok = some (ti.serialize ++ rest) := by
  simp only [TokenInfo.decrypt, Option.bind_eq_some, TokenInfo.deserialize_eq_some]
  exact ⟨fun ⟨_, hd, rest, h⟩ => ⟨rest, h ▸ hd⟩, fun ⟨rest, hd⟩ => ⟨_, hd, rest, rfl⟩⟩

end Geph4
