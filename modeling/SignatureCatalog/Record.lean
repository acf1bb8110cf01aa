import SignatureCatalog.Adapter
import SignatureCatalog.Identity

/-!
# Records

A record is an algorithm as the catalog keeps it: its identity, its adapter, and the interpretation
of its public key payloads. The adapter is asked for the interpretation once, when the record is
made; from then on the record's own copy counts.
-/

namespace SignatureCatalog

/-- An algorithm with its adapter. -/
structure Record (ω β : Type) extends Identity where
  adapter : Adapter ω β
  publicKeyEncoding : Interpretation

namespace Record

variable {ω β : Type}

/-- Makes a record, asking the adapter for the interpretation of its payloads. -/
def make (identity : Identity) (adapter : Adapter ω β) : Act Mark ω (Record ω β) := do
  let encoding ← adapter.ask .publicKeyEncoding adapter.publicKeyEncoding
  return ⟨identity, adapter, encoding⟩

@[simp] theorem run_make (identity : Identity) (adapter : Adapter ω β) (world : ω) :
    (make identity adapter).run world =
      ⟨⟨identity, adapter, (adapter.publicKeyEncoding.run world).value⟩,
        (adapter.publicKeyEncoding.run world).world,
        .adapter adapter.label .publicKeyEncoding ::
          (adapter.publicKeyEncoding.run world).marks.map .event⟩ := by
  simp [make]

end Record

end SignatureCatalog
