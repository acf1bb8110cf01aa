import SignatureCatalog.Proofs.Registry.Extension

/-!
# The order of the records

A registry keeps its records in an order, and a different history may leave the same records in
another one. The order decides two things: which adapter is the first to be shown a key that does
not tell its algorithm, and in which order the schemes are offered. Nothing else depends on it,
because no two records of a reachable registry collide, and a question that is put by an identifier
has one record to be answered by.

`SameRecords` forgets the order, `AnswersAlike` lists the answers, and `Reachable.answersAlike` says
that the second follows from the first.
-/

namespace SignatureCatalog.Registry

variable {ω β κ : Type} {r r' : Registry ω β}

/-- The two registries have the same records, in whatever order. -/
def SameRecords (r r' : Registry ω β) : Prop :=
  ∀ record, record ∈ r.records ↔ record ∈ r'.records

/-- No record of a reachable registry comes twice. -/
theorem Reachable.nodup_records (h : r.Reachable) : r.records.Nodup :=
  h.exactLookup_name.distinct.of_map

theorem SameRecords.perm (same : SameRecords r r') (h : r.Reachable) (h' : r'.Reachable) :
    r.records.Perm r'.records :=
  (List.perm_ext_iff_of_nodup h.nodup_records h'.nodup_records).mpr same

/-- **Two registries answer alike**: whatever is asked by an identifier, or about a key that tells
its algorithm, comes to the same in both. -/
structure AnswersAlike (r r' : Registry ω β) : Prop where
  lookupName : ∀ name, r'.lookupName name = r.lookupName name
  lookupOid : ∀ oid, r'.lookupOid oid = r.lookupOid oid
  lookupScheme : ∀ scheme, r'.lookupScheme scheme = r.lookupScheme scheme
  supportsOid : ∀ oid, r'.supportsOid oid = r.supportsOid oid
  supportsScheme : ∀ scheme, r'.supportsScheme scheme = r.supportsScheme scheme
  supportsPair : ∀ pair, r'.supportsPair pair = r.supportsPair pair
  signer : ∀ name, r'.dispatch.signer name = r.dispatch.signer name
  verifier : ∀ scheme, r'.dispatch.verifier scheme = r.dispatch.verifier scheme
  /-- With the same calls to adapters on the way. -/
  tagged : ∀ k oid, k.algorithm? = some oid → ∀ w, RoutesAlike r r' k w
  readPrivateKey : ∀ info, r'.readPrivateKey info = r.readPrivateKey info
  readPublicKey : ∀ info parameters,
    r'.readPublicKey info parameters = r.readPublicKey info parameters
  parsePublicKey : ∀ info, r'.parsePublicKey info = r.parsePublicKey info

/-- Exact lookups among the same records find the same, and fail with the same error. -/
theorem ExactLookup.congr [DecidableEq κ] [Ord κ] {records records' : List (Record ω β)}
    {identifier : Record ω β → κ} {index index' : FiniteMap κ Nat}
    {lookup lookup' : κ → Except Error (Record ω β)} {kind : κ → Identifier}
    (exact : ExactLookup records identifier index lookup kind)
    (exact' : ExactLookup records' identifier index' lookup' kind)
    (same : ∀ record, record ∈ records ↔ record ∈ records') (x : κ) : lookup' x = lookup x := by
  cases found : lookup x with
  | ok record =>
    have subset : records ⊆ records' := fun record hmem => (same record).mp hmem
    exact exact.mono exact' subset found
  | error e =>
    obtain ⟨he, missing⟩ := (exact.notFound_iff x e).mp found
    have missing' : ∀ record ∈ records', identifier record ≠ x :=
      fun record hmem => missing record ((same record).mpr hmem)
    exact (exact'.notFound_iff x e).mpr ⟨he, missing'⟩

/-- **A reachable registry answers by the set of its records.** -/
theorem Reachable.answersAlike (h : r.Reachable) (h' : r'.Reachable) (same : SameRecords r r') :
    AnswersAlike r r' := by
  have lookupName := h.exactLookup_name.congr h'.exactLookup_name same
  have lookupOid := h.exactLookup_oid.congr h'.exactLookup_oid same
  have lookupScheme := h.exactLookup_scheme.congr h'.exactLookup_scheme same
  have supportsScheme (scheme : SignatureScheme) :
      r'.supportsScheme scheme = r.supportsScheme scheme := by
    -- the predicates ask whether the lookup succeeds
    rw [h'.supportsScheme_eq, h.supportsScheme_eq, lookupScheme]
  -- everything else asks one of the three lookups first, and goes on with what it finds
  exact {
    lookupName, lookupOid, lookupScheme, supportsScheme
    supportsOid := fun oid => by rw [h'.supportsOid_eq, h.supportsOid_eq, lookupOid]
    supportsPair := fun pair => supportsScheme (.ofPair pair)
    signer := fun name => by rw [h'.signer_eq, h.signer_eq, lookupName]
    verifier := fun scheme => by rw [h'.verifier_eq, h.verifier_eq, lookupScheme]
    tagged := fun _ _ tagged => h.routesAlike h' tagged fun record _ => same record
    readPrivateKey := fun info => by
      rw [Registry.readPrivateKey, Registry.readPrivateKey, lookupOid]
    readPublicKey := fun info parameters => by
      rw [Registry.readPublicKey, Registry.readPublicKey, lookupOid]
    parsePublicKey := fun info => by
      rw [Registry.parsePublicKey, Registry.parsePublicKey, lookupOid] }

/-- The schemes that are offered are the same, in an order of their own. -/
theorem Reachable.perm_supportedSchemes (h : r.Reachable) (h' : r'.Reachable)
    (same : SameRecords r r') : r.dispatch.supportedSchemes.Perm r'.dispatch.supportedSchemes := by
  rw [h.supportedSchemes_eq, h'.supportedSchemes_eq]
  -- they are listed in the order of the records, and that is all the order decides
  exact (same.perm h h').map _

end SignatureCatalog.Registry
