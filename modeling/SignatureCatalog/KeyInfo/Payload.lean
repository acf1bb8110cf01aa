import SignatureCatalog.Mark

/-!
# Reading a payload

A payload is read in the interpretation its reader asks for. Reading it flat when it is a complete
nested key info at the same time succeeds, but is the one sign of a mistaken interpretation, and so
leaves a warning. Reading it nested never does.
-/

namespace SignatureCatalog.SubjectPublicKeyInfo

/-- The warnings that reading a payload leaves. -/
def payloadWarnings (k : SubjectPublicKeyInfo) : Interpretation → List Event
  | .flat => if k.isAmbiguous then [.flatReadOfNested k.oid] else []
  | .nested => []

/-- Reads the payload in one of the two ways, and warns. -/
def parsePayload {ω : Type} (k : SubjectPublicKeyInfo) (reading : Interpretation) :
    Act Event ω (Except Der.Error PublicKeyPayload) := do
  .markAll (k.payloadWarnings reading)
  return k.decodePayload reading

@[simp] theorem run_parsePayload {ω : Type} (k : SubjectPublicKeyInfo) (reading : Interpretation)
    (world : ω) :
    (k.parsePayload reading).run world =
      ⟨k.decodePayload reading, world, k.payloadWarnings reading⟩ := by
  simp [parsePayload]

end SignatureCatalog.SubjectPublicKeyInfo
