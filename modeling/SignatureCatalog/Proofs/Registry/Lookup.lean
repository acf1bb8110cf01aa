import SignatureCatalog.Proofs.Registry.Distinct

/-!
# Lookups in a registry

The three lookups of a reachable registry are exact (`Reachable.exactLookup_name` and its
companions): its records do not collide, so the identifiers of each kind are distinct, and its
indexes are those of its records. The two predicates that look at an index alone, without fetching
the record, agree with the lookups for that reason.

`exactLookup_ofHistory` is the whole statement, for the registry after any history of
registrations, accepted or refused, and overrides.
-/

namespace SignatureCatalog.Registry

variable {ω β : Type} {r : Registry ω β}

/-! ### One identifier at a time -/

/-- Any identifier that makes records collide can be looked up exactly. -/
theorem Reachable.exactLookup {κ : Type} [DecidableEq κ] [Ord κ] (h : r.Reachable)
    (identifier : Record ω β → κ)
    (shared : ∀ a b : Record ω β, identifier a = identifier b → a.collidesWith b.toIdentity)
    (kind : κ → Identifier) :
    ExactLookup r.records identifier (indexBy identifier r.records)
      (fun x => match lookupBy identifier r.records x with
        | some record => .ok record
        | none => .error (.notFound (kind x))) kind :=
  exactLookup_of_nodup (h.distinct.nodup_map identifier shared) kind

theorem Reachable.exactLookup_name (h : r.Reachable) :
    ExactLookup r.records (·.name) r.byName r.lookupName .name := by
  have exact := h.exactLookup (·.name)
    (fun _ _ heq => Identity.collidesWith_iff.mpr (.inl heq)) .name
  -- the index of a reachable registry is the one made from its records
  rw [h.eq_ofRecords]
  exact exact

theorem Reachable.exactLookup_oid (h : r.Reachable) :
    ExactLookup r.records (·.oid) r.byOid r.lookupOid .oid := by
  have exact := h.exactLookup (·.oid)
    (fun _ _ heq => Identity.collidesWith_iff.mpr (.inr (.inl heq))) .oid
  rw [h.eq_ofRecords]
  exact exact

theorem Reachable.exactLookup_scheme (h : r.Reachable) :
    ExactLookup r.records (·.scheme) r.byScheme r.lookupScheme .scheme := by
  have exact := h.exactLookup (·.scheme)
    (fun _ _ heq => Identity.collidesWith_iff.mpr (.inr (.inr heq))) .scheme
  rw [h.eq_ofRecords]
  exact exact

/-! ### The predicates -/

/-- Where a lookup is exact, its index knows an identifier exactly if the lookup succeeds. -/
theorem ExactLookup.contains_eq_isOk {κ : Type} [DecidableEq κ] [Ord κ]
    {records : List (Record ω β)} {identifier : Record ω β → κ}
    {lookup : κ → Except Error (Record ω β)} {kind : κ → Identifier}
    (h : ExactLookup records identifier (indexBy identifier records) lookup kind) (x : κ) :
    (indexBy identifier records).contains x = (lookup x).isOk := by
  cases hx : lookup x with
  | error e =>
    exact contains_indexBy_eq_false_iff.mpr ((h.notFound_iff x e).mp hx).2
  | ok record =>
    obtain ⟨hmem, hid⟩ := (h.found_iff x record).mp hx
    -- an index that did not know the identifier would have no record with it
    by_contra hne
    exact contains_indexBy_eq_false_iff.mp (Bool.not_eq_true _ ▸ hne) record hmem hid

theorem Reachable.supportsOid_eq (h : r.Reachable) (oid : Oid) :
    r.supportsOid oid = (r.lookupOid oid).isOk := by
  have exact := h.exactLookup_oid
  -- asked of the registry made from its records, which is the same one
  rw [h.eq_ofRecords] at exact ⊢
  exact exact.contains_eq_isOk oid

theorem Reachable.supportsScheme_eq (h : r.Reachable) (scheme : SignatureScheme) :
    r.supportsScheme scheme = (r.lookupScheme scheme).isOk := by
  have exact := h.exactLookup_scheme
  rw [h.eq_ofRecords] at exact ⊢
  exact exact.contains_eq_isOk scheme

/-! ### Any history -/

/-- **Lookups are exact after any history.** Whatever was registered, refused or overridden, no two
records share an identifier, no index points past the records, each lookup finds exactly the record
with the identifier asked for, and the predicates say when. -/
theorem exactLookup_ofHistory (history : List (Change ω β × ω)) :
    let r := ofHistory history
    ExactLookup r.records (·.name) r.byName r.lookupName .name ∧
      ExactLookup r.records (·.oid) r.byOid r.lookupOid .oid ∧
      ExactLookup r.records (·.scheme) r.byScheme r.lookupScheme .scheme ∧
      (∀ oid, r.supportsOid oid = (r.lookupOid oid).isOk) ∧
      ∀ scheme, r.supportsScheme scheme = (r.lookupScheme scheme).isOk := by
  have h := reachable_ofHistory history
  exact ⟨h.exactLookup_name, h.exactLookup_oid, h.exactLookup_scheme, h.supportsOid_eq,
    h.supportsScheme_eq⟩

end SignatureCatalog.Registry
