import SignatureCatalog.Text.Hexadecimal

/-!
# Signature schemes

A TLS signature scheme is a 16-bit code point. TLS 1.2 read the same two octets as a pair of a hash
and a signature algorithm; `SignatureScheme.pair` and `SignatureScheme.ofPair` are the two views and
they are inverse to each other (`ofPair_pair`, `pair_ofPair`), so no code point is lost on the
legacy path. For schemes added later the high octet names no hash algorithm.
-/

namespace SignatureCatalog

/-- A TLS signature scheme, named by its code point. -/
structure SignatureScheme where
  codePoint : UInt16
  deriving DecidableEq, Repr

/-- The TLS 1.2 reading of a code point. -/
structure SignatureAndHash where
  hash : UInt8
  signature : UInt8
  deriving DecidableEq, Repr

namespace SignatureScheme

/-- The scheme with the given high and low octet. -/
def ofOctets (hash signature : UInt8) : SignatureScheme :=
  ⟨UInt16.ofNat (256 * hash.toNat + signature.toNat)⟩

/-- The high octet, the hash half of the legacy pair. -/
def hash (s : SignatureScheme) : UInt8 :=
  UInt8.ofNat (s.codePoint.toNat / 256)

/-- The low octet, the signature half of the legacy pair. -/
def signature (s : SignatureScheme) : UInt8 :=
  UInt8.ofNat (s.codePoint.toNat % 256)

/-- The code point as a legacy pair. -/
def pair (s : SignatureScheme) : SignatureAndHash :=
  ⟨s.hash, s.signature⟩

/-- The scheme a legacy pair stands for. -/
def ofPair (p : SignatureAndHash) : SignatureScheme :=
  ofOctets p.hash p.signature

/-- The code points from 0xFE00 on are reserved for private use. -/
def isPrivateUse (s : SignatureScheme) : Bool :=
  0xFE00 ≤ s.codePoint

/-- Schemes are ordered by code point. -/
instance : Ord SignatureScheme := ⟨fun s t => compare s.codePoint t.codePoint⟩

/-- The assigned code points that have a name of their own. -/
def assigned : List (UInt16 × String) :=
  [(0x0201, "rsa_pkcs1_sha1"), (0x0203, "ecdsa_sha1"),
   (0x0401, "rsa_pkcs1_sha256"), (0x0403, "ecdsa_secp256r1_sha256"),
   (0x0501, "rsa_pkcs1_sha384"), (0x0503, "ecdsa_secp384r1_sha384"),
   (0x0601, "rsa_pkcs1_sha512"), (0x0603, "ecdsa_secp521r1_sha512"),
   (0x0804, "rsa_pss_rsae_sha256"), (0x0805, "rsa_pss_rsae_sha384"),
   (0x0806, "rsa_pss_rsae_sha512"), (0x0807, "ed25519"), (0x0808, "ed448"),
   (0x0809, "rsa_pss_pss_sha256"), (0x080A, "rsa_pss_pss_sha384"),
   (0x080B, "rsa_pss_pss_sha512"),
   (0x0904, "mldsa44"), (0x0905, "mldsa65"), (0x0906, "mldsa87")]

/-- The name of a scheme, or what its code point is set aside for. -/
def name (s : SignatureScheme) : String :=
  match assigned.lookup s.codePoint with
  | some name => name
  | none => if s.isPrivateUse then "private use" else "unassigned"

/-- The code point in hexadecimal, then the name in parentheses. -/
def text (s : SignatureScheme) : String :=
  "0x" ++ Text.hexadecimal .upper 4 s.codePoint.toNat ++ " (" ++ s.name ++ ")"

/-- Every code point has a text, whether it is assigned or not. -/
example : ([0x0807, 0xABCD, 0xFE00].map fun c => text ⟨c⟩) =
    ["0x0807 (ed25519)", "0xABCD (unassigned)", "0xFE00 (private use)"] := by
  decide +kernel

/-! ### The two views of a code point -/

/-- The high octet is what the scheme was made with. -/
@[simp] theorem hash_ofOctets (hash signature : UInt8) :
    (ofOctets hash signature).hash = hash := by
  apply UInt8.toNat_inj.1
  have hh := hash.toNat_lt
  have hs := signature.toNat_lt
  simp only [SignatureScheme.hash, ofOctets, UInt16.toNat_ofNat', UInt8.toNat_ofNat']
  omega

/-- The low octet is what the scheme was made with. -/
@[simp] theorem signature_ofOctets (hash signature : UInt8) :
    (ofOctets hash signature).signature = signature := by
  apply UInt8.toNat_inj.1
  have hh := hash.toNat_lt
  have hs := signature.toNat_lt
  simp only [SignatureScheme.signature, ofOctets, UInt16.toNat_ofNat', UInt8.toNat_ofNat']
  omega

/-- Splitting a code point and joining the halves gives it back. -/
@[simp] theorem ofPair_pair (s : SignatureScheme) : ofPair s.pair = s := by
  obtain ⟨c⟩ := s
  have hc := c.toNat_lt
  simp only [ofPair, pair, ofOctets, hash, signature, mk.injEq]
  apply UInt16.toNat_inj.1
  simp only [UInt16.toNat_ofNat', UInt8.toNat_ofNat']
  omega

/-- Joining two halves and splitting the code point gives them back. -/
@[simp] theorem pair_ofPair (p : SignatureAndHash) : (ofPair p).pair = p := by
  simp [ofPair, pair]

end SignatureScheme

/-- Legacy pairs are ordered by hash, then by signature. -/
instance : Ord SignatureAndHash :=
  ⟨fun p q => (compare p.hash q.hash).then (compare p.signature q.signature)⟩

end SignatureCatalog
