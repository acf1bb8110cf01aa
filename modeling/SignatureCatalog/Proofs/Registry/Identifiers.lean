import SignatureCatalog.Proofs.Registry.Handshake

/-!
# Identifiers and their bearers

A registry is asked by identifiers of three kinds, and has an index for each of them and dispatch
tables for two. What it answers does not depend on the kind, nor on which of the copies of its data
it takes the answer from: if a record bears the identifier, every way of asking leads to that record
(`Reachable.leadsTo`), and if none does, every way of asking says so, and says for which identifier
(`Reachable.isUnknown`).
-/

namespace SignatureCatalog

variable {ω β : Type}

/-- The record goes by the identifier. -/
def Record.Bears (record : Record ω β) : Identifier → Prop
  | .name name => record.name = name
  | .oid oid => record.oid = oid
  | .scheme scheme => record.scheme = scheme

namespace Registry

variable {r : Registry ω β} {record : Record ω β} {identifier : Identifier}

/-- The record that goes by an identifier. -/
def lookup (r : Registry ω β) : Identifier → Except Error (Record ω β)
  | .name name => r.lookupName name
  | .oid oid => r.lookupOid oid
  | .scheme scheme => r.lookupScheme scheme

/-- Some record goes by the identifier. -/
def IsRegistered (r : Registry ω β) (identifier : Identifier) : Prop :=
  ∃ record ∈ r.records, record.Bears identifier

theorem Reachable.lookup_eq_ok_iff (h : r.Reachable) :
    r.lookup identifier = .ok record ↔ record ∈ r.records ∧ record.Bears identifier := by
  -- the three lookups are exact, each for its kind of identifier
  cases identifier with
  | name name => exact h.exactLookup_name.found_iff name record
  | oid oid => exact h.exactLookup_oid.found_iff oid record
  | scheme scheme => exact h.exactLookup_scheme.found_iff scheme record

/-- A lookup fails for want of a record, and for nothing else. -/
theorem Reachable.lookup_eq_error_iff (h : r.Reachable) {e : Error} :
    r.lookup identifier = .error e ↔ e = .notFound identifier ∧ ¬r.IsRegistered identifier := by
  have hnone : ¬r.IsRegistered identifier ↔ ∀ record ∈ r.records, ¬record.Bears identifier := by
    rw [IsRegistered, not_exists]
    exact forall_congr' fun record => not_and
  rw [hnone]
  cases identifier with
  | name name => exact h.exactLookup_name.notFound_iff name e
  | oid oid => exact h.exactLookup_oid.notFound_iff oid e
  | scheme scheme => exact h.exactLookup_scheme.notFound_iff scheme e

/-- An identifier has one bearer at most. -/
theorem Reachable.eq_of_bears (h : r.Reachable) {a b : Record ω β} (ha : a ∈ r.records)
    (hb : b ∈ r.records) (bearsA : a.Bears identifier) (bearsB : b.Bears identifier) : a = b := by
  have founda := h.lookup_eq_ok_iff.mpr ⟨ha, bearsA⟩
  -- the lookup would find both, and it finds one
  rw [h.lookup_eq_ok_iff.mpr ⟨hb, bearsB⟩] at founda
  exact (Except.ok.inj founda).symm

/-- **The identifier leads to the record**, whichever way it is asked for. -/
structure LeadsTo (r : Registry ω β) (identifier : Identifier) (record : Record ω β) : Prop where
  lookup : r.lookup identifier = .ok record
  signer : ∀ name, identifier = .name name → r.dispatch.signer name = .ok record.adapter
  verifier : ∀ scheme, identifier = .scheme scheme →
    r.dispatch.verifier scheme = .ok record.adapter
  supportsOid : ∀ oid, identifier = .oid oid → r.supportsOid oid = true
  supportsScheme : ∀ scheme, identifier = .scheme scheme → r.supportsScheme scheme = true
  offered : ∀ scheme, identifier = .scheme scheme → scheme ∈ r.dispatch.supportedSchemes

/-- **Nothing goes by the identifier**, whichever way it is asked for. -/
structure IsUnknown (r : Registry ω β) (identifier : Identifier) : Prop where
  lookup : r.lookup identifier = .error (.notFound identifier)
  signer : ∀ name, identifier = .name name →
    r.dispatch.signer name = .error (.notFound identifier)
  verifier : ∀ scheme, identifier = .scheme scheme →
    r.dispatch.verifier scheme = .error (.notFound identifier)
  supportsOid : ∀ oid, identifier = .oid oid → r.supportsOid oid = false
  supportsScheme : ∀ scheme, identifier = .scheme scheme → r.supportsScheme scheme = false
  offered : ∀ scheme, identifier = .scheme scheme → scheme ∉ r.dispatch.supportedSchemes

/-- A record is found by each identifier that it bears. -/
theorem Reachable.leadsTo (h : r.Reachable) (hrecord : record ∈ r.records)
    (bears : record.Bears identifier) : r.LeadsTo identifier record := by
  have found := h.lookup_eq_ok_iff.mpr ⟨hrecord, bears⟩
  -- all other ways of asking answer as the lookup does
  refine ⟨found, ?_, ?_, ?_, ?_, ?_⟩
  · rintro name rfl
    exact (h.signer_eq name).trans (congrArg (Except.map (·.adapter)) found)
  · rintro scheme rfl
    exact (h.verifier_eq scheme).trans (congrArg (Except.map (·.adapter)) found)
  · rintro oid rfl
    exact (h.supportsOid_eq oid).trans (congrArg Except.isOk found)
  · rintro scheme rfl
    exact (h.supportsScheme_eq scheme).trans (congrArg Except.isOk found)
  · rintro scheme rfl
    exact (h.supportsScheme_iff scheme).mp
      ((h.supportsScheme_eq scheme).trans (congrArg Except.isOk found))

/-- An identifier that no record bears is unknown everywhere. -/
theorem Reachable.isUnknown (h : r.Reachable) (missing : ¬r.IsRegistered identifier) :
    r.IsUnknown identifier := by
  have failed := h.lookup_eq_error_iff.mpr ⟨rfl, missing⟩
  have unsupported (scheme : SignatureScheme) (hscheme : identifier = .scheme scheme) :
      r.supportsScheme scheme = false := by
    subst hscheme
    exact (h.supportsScheme_eq scheme).trans (congrArg Except.isOk failed)
  refine ⟨failed, ?_, ?_, ?_, unsupported, ?_⟩
  · rintro name rfl
    exact (h.signer_eq name).trans (congrArg (Except.map (·.adapter)) failed)
  · rintro scheme rfl
    exact (h.verifier_eq scheme).trans (congrArg (Except.map (·.adapter)) failed)
  · rintro oid rfl
    exact (h.supportsOid_eq oid).trans (congrArg Except.isOk failed)
  · intro scheme hscheme hoffered
    -- what is offered is supported
    have hfalse := unsupported scheme hscheme
    rw [(h.supportsScheme_iff scheme).mpr hoffered] at hfalse
    cases hfalse

end Registry

end SignatureCatalog
