import Mathlib.Data.List.AList
import Mathlib.Algebra.Group.Nat.Basic

/-!
# Vocabulary of the sosistab model

Byte strings, socket addresses, keys and the handshake frames that
`lib/sosistab/src/listener.rs` exchanges.

The listener calls into `crypt.rs` (`LegacyAEAD`, `triple_ecdh`, `Cookie`, the
`UP_KEY`/`DN_KEY` constants) and `protocol.rs` (`HandshakeFrame`), which are not
among the repository's files here. They are parameters: `Crypt` and `Cookie`
below, so that every result holds for every implementation of them, under the
laws it names (`Crypt.Sound`: decryption undoes encryption under the same key).

`Crypt.plain` is one transparent implementation (a "ciphertext" is the key
followed by the plaintext). It satisfies `Crypt.Sound` (`plain_sound`) and is
what the concrete runs of the development are evaluated with.
-/
namespace Geph4

/-- `Bytes`, `Vec<u8>`, `&[u8]`. -/
abbrev Bytes := List UInt8
abbrev Addr := Nat
/-- Symmetric keys (`[u8; 32]`), x25519 public keys and static secrets. -/
abbrev Key := Bytes
abbrev PubKey := Bytes
abbrev Secret := Bytes
abbrev Nonce := Nat
/-- A resume token: the encrypted `TokenInfo` a client echoes in `ClientResume`. -/
abbrev Token := Bytes

/-- `protocol::HandshakeFrame`. The variants of the stream multiplex are opaque
to the listener (`other`). -/
inductive HandshakeFrame where
  | clientHello (longPk ephPk : PubKey) (version : UInt64)
  | serverHello (longPk ephPk : PubKey) (resumeToken : Bytes)
  | clientResume (resumeToken : Bytes) (shardId : UInt8)
  | other (tag : Nat)
  deriving DecidableEq, Repr

/-- The `crypt.rs` functions the listener calls: `LegacyAEAD`'s
`pad_decrypt_v1`, `pad_encrypt_v1`, `encrypt` and `decrypt`, `triple_ecdh`,
`blake3::keyed_hash`, `PublicKey::from`, the `UP_KEY`/`DN_KEY` constants, and
the length of an x25519 shared secret. -/
structure Crypt where
  padDecryptV1 : Key → Bytes → Option (List HandshakeFrame)
  padEncryptV1 : Key → List HandshakeFrame → Nat → Bytes
  encrypt : Key → Bytes → Nonce → Bytes
  decrypt : Key → Bytes → Option Bytes
  tripleEcdh : Secret → Secret → PubKey → PubKey → Bytes
  keyedHash : Bytes → Bytes → Bytes
  pubOf : Secret → PubKey
  upKey : Bytes
  dnKey : Bytes
  tripleEcdh_length : ∀ a b c d, (tripleEcdh a b c d).length = 32

/-- `Cookie::generate_c2s()` / `generate_s2c()`: a pure function of the server's
long-term public key (fixed per listener) and the wall clock (ms since the
Unix epoch). -/
structure Cookie where
  generateC2s : Int → List Key
  generateS2c : Int → List Key

def Crypt.Sound (C : Crypt) : Prop := ∀ k p n, C.decrypt k (C.encrypt k p n) = some p

/-- A transparent implementation: a ciphertext under `k` is `k ++ plain`, and a
handshake packet is read off its first bytes (`0`: no frame; `1, s, t…`:
`ClientResume` of token `t…` on shard `s`; `2, v`: `ClientHello` of version `v`). -/
def Crypt.plain : Crypt where
  padDecryptV1 _ b := match b with
    | 0 :: _ => some []
    | 1 :: s :: t => some [.clientResume t s]
    | 2 :: v :: _ => some [.clientHello [] [] v.toUInt64]
    | _ => none
  padEncryptV1 _ _ _ := []
  encrypt k p _ := k ++ p
  decrypt k c := if k.isPrefixOf c then some (c.drop k.length) else none
  tripleEcdh _ _ _ _ := List.replicate 32 0
  keyedHash k d := k ++ d
  pubOf s := s
  upKey := [1]
  dnKey := [2]
  tripleEcdh_length _ _ _ _ := List.length_replicate _ _

theorem plain_sound : Crypt.plain.Sound := by
  intro k p n
  simp [Crypt.plain, List.isPrefixOf_iff_prefix]

end Geph4
