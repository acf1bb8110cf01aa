import SignatureCatalog.Oid.Parse

/-!
# Well-known object identifiers

Identifiers that standards have given a name. Publishing an algorithm under one of them is worth
noting, because other software may know the identifier already. The table is a small part of the
database of such names, which has many more.
-/

namespace SignatureCatalog.Oid

/-- Some of the named identifiers, by content octets. -/
def wellKnown : List (Oid × String) :=
  [(⟨[0x2A, 0x86, 0x48, 0xCE, 0x3D, 0x02, 0x01]⟩, "id-ecPublicKey"),
   (⟨[0x2A, 0x86, 0x48, 0xCE, 0x3D, 0x04, 0x03, 0x02]⟩, "ecdsa-with-SHA256"),
   (⟨[0x2A, 0x86, 0x48, 0x86, 0xF7, 0x0D, 0x01, 0x01, 0x01]⟩, "rsaEncryption"),
   (⟨[0x2A, 0x86, 0x48, 0x86, 0xF7, 0x0D, 0x01, 0x01, 0x0A]⟩, "id-RSASSA-PSS"),
   (⟨[0x2A, 0x86, 0x48, 0x86, 0xF7, 0x0D, 0x01, 0x01, 0x0B]⟩, "sha256WithRSAEncryption"),
   (⟨[0x2B, 0x65, 0x70]⟩, "id-Ed25519"),
   (⟨[0x2B, 0x65, 0x71]⟩, "id-Ed448"),
   (⟨[0x60, 0x86, 0x48, 0x01, 0x65, 0x03, 0x04, 0x02, 0x01]⟩, "id-sha256"),
   (⟨[0x55, 0x04, 0x03]⟩, "cn")]

/-- The name a standard has given to an identifier, if it is in the table. -/
def wellKnownName? (o : Oid) : Option String :=
  wellKnown.lookup o

/-- The table is what its dotted spellings parse to. -/
example :
    (["1.2.840.10045.2.1", "1.2.840.10045.4.3.2", "1.2.840.113549.1.1.1", "1.2.840.113549.1.1.10",
      "1.2.840.113549.1.1.11", "1.3.101.112", "1.3.101.113", "2.16.840.1.101.3.4.2.1",
      "2.5.4.3"].map fun t => (parse t).toOption) = wellKnown.map fun e => some e.1 := by
  decide +kernel

end SignatureCatalog.Oid
