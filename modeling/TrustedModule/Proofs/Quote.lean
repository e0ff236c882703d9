import TrustedModule.Proofs.Authorization.Binding
import TrustedModule.Proofs.Rsa.Signature
import TrustedModule.Proofs.Wire.RoundTrip
import TrustedModule.Quote

/-!
# What a quote signature binds

The signed message has no frame around its parts: the register information has no fixed length, and
the version blob behind it is raw. The counted mask in the register information tells where it ends,
so the message can still be taken apart. An accepted signature then stands for one nonce, one state
of the registers and one blob, but for a collision of the two messages at hand.
-/

set_option autoImplicit false

namespace TrustedModule

variable {pub : PubKey} {signature : Bytes} {externalData externalData' : Digest}
  {info info' : PcrInfoShort} {capBytes capBytes' message message' : Bytes}

theorem quoteMessage_eq_ok :
    quoteMessage externalData info capBytes = .ok message ↔
      ∃ encoded, Wire.encode info = .ok encoded ∧
        message = quoteHead ++ externalData.bytes ++ encoded ++ capBytes := by
  unfold quoteMessage
  cases Wire.encode info with
  | error error => exact ⟨nofun, nofun⟩
  | ok encoded =>
    constructor
    · intro h
      cases h
      exact ⟨encoded, rfl, rfl⟩
    · rintro ⟨_, hencoded, rfl⟩
      cases hencoded
      rfl

/-- No two quotes have one message. -/
theorem quoteMessage_inj (h : quoteMessage externalData info capBytes = .ok message)
    (h' : quoteMessage externalData' info' capBytes' = .ok message) :
    externalData = externalData' ∧ info = info' ∧ capBytes = capBytes' := by
  obtain ⟨encoded, hencoded, rfl⟩ := quoteMessage_eq_ok.mp h
  obtain ⟨encoded', hencoded', happend⟩ := quoteMessage_eq_ok.mp h'
  simp only [List.append_assoc] at happend
  have hrest := List.append_cancel_left happend
  have hdata : externalData.bytes.length = externalData'.bytes.length := by simp
  obtain ⟨hexternal, hinfo⟩ := List.append_inj hrest hdata
  exact ⟨Block.ext hexternal, Wire.encode_append_inj hencoded hencoded' hinfo⟩

theorem verifyQuote2_eq_ok_true :
    verifyQuote2 pub externalData info capBytes signature = .ok true ↔
      ∃ message key, quoteMessage externalData info capBytes = .ok message ∧
        pub.toRsaPublicKey = .ok key ∧ key.Signs signature (sha1 message) := by
  unfold verifyQuote2
  constructor
  · intro h
    obtain ⟨message, hmessage, h⟩ := bind_eq_ok.mp h
    obtain ⟨key, hkey, h⟩ := bind_eq_ok.mp h
    exact ⟨message, key, hmessage, hkey, RsaPublicKey.verify_iff.mp (Except.ok.inj h)⟩
  · rintro ⟨message, key, hmessage, hkey, hsigns⟩
    rw [hmessage, hkey]
    exact congrArg Except.ok (RsaPublicKey.verify_iff.mpr hsigns)

/-- A signature that is accepted for two quotes under one key is good for one digest, which both
messages have. The messages are the same only if the quotes are, so a signature that is accepted
for two different quotes shows two different messages with one hash. -/
theorem verifyQuote2_binds (h : verifyQuote2 pub externalData info capBytes signature = .ok true)
    (h' : verifyQuote2 pub externalData' info' capBytes' signature = .ok true) :
    ∃ key message message', pub.toRsaPublicKey = .ok key ∧
      quoteMessage externalData info capBytes = .ok message ∧
      quoteMessage externalData' info' capBytes' = .ok message' ∧
      key.Signs signature (sha1 message) ∧ sha1 message = sha1 message' ∧
      (message = message' ↔
        externalData = externalData' ∧ info = info' ∧ capBytes = capBytes') ∧
      ((externalData, info, capBytes) ≠ (externalData', info', capBytes') →
        Collision sha1 message message') := by
  obtain ⟨message, key, hmessage, hkey, hsigns⟩ := verifyQuote2_eq_ok_true.mp h
  obtain ⟨message', key', hmessage', hkey', hsigns'⟩ := verifyQuote2_eq_ok_true.mp h'
  have hsame : key = key' := Except.ok.inj (hkey.symm.trans hkey')
  subst hsame
  have hdigest : sha1 message = sha1 message' := hsigns.digest_unique hsigns'
  have hinj : message = message' ↔
      externalData = externalData' ∧ info = info' ∧ capBytes = capBytes' := by
    constructor
    · intro heq
      rw [← heq] at hmessage'
      exact quoteMessage_inj hmessage hmessage'
    · rintro ⟨rfl, rfl, rfl⟩
      exact Except.ok.inj (hmessage.symm.trans hmessage')
  refine ⟨key, message, message', hkey, hmessage, hmessage', hsigns, hdigest, hinj, ?_⟩
  intro hne
  refine ⟨fun heq => hne ?_, hdigest⟩
  obtain ⟨rfl, rfl, rfl⟩ := hinj.mp heq
  rfl

/-- A quote of register 16 without a version. -/
def debugQuote : PcrInfoShort := { pcrSelection := ⟨[0, 0, 1]⟩, localityAtRelease := 1 }

/-- The power of two that signs it: its cube is one modulus above the padded digest of the
message. -/
def debugSignature : Bytes := bigEndian 46 (2 ^ 121)

def debugModulus : Nat :=
  2 ^ 363 -
    0x1FFFFFFFFFFFFFFFF003021300906052B0E03021A050004149D9DD4CC6B17024A17E07F986E4CB10FC25C078B

/-- An RSA key of that modulus with the exponent 3. -/
def debugPub : PubKey where
  algorithmParams :=
    { algorithmId := rsaAlgorithm
      params := bigEndian 4 363 ++ bigEndian 4 2 ++ bigEndian 4 1 ++ [3] }
  key := bigEndian 46 debugModulus

theorem verifyQuote2_debugQuote :
    verifyQuote2 debugPub (.zero 20) debugQuote [] debugSignature = .ok true := by
  decide +kernel

theorem verifyQuote2_binds_debugQuote :
    ∃ key message message', debugPub.toRsaPublicKey = .ok key ∧
      quoteMessage (.zero 20) debugQuote [] = .ok message ∧
      quoteMessage (.zero 20) debugQuote [] = .ok message' ∧
      key.Signs debugSignature (sha1 message) ∧ sha1 message = sha1 message' ∧
      (message = message' ↔
        Block.zero 20 = Block.zero 20 ∧ debugQuote = debugQuote ∧ ([] : Bytes) = []) ∧
      ((Block.zero 20, debugQuote, ([] : Bytes)) ≠ (Block.zero 20, debugQuote, []) →
        Collision sha1 message message') :=
  verifyQuote2_binds verifyQuote2_debugQuote verifyQuote2_debugQuote

end TrustedModule
