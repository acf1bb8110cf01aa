import SignatureCatalog.Proofs.Registry.Lookup

/-!
# The handshake's view of a registry

A handshake does not look at the records. It signs through the dispatch tables, offers the schemes
these list, and asks the scheme index about legacy pairs; so the registry holds the same data three
times, and the views could drift apart. They do not:

* A table of adapters and an index of places are filled by the same pass over the records, a later
  record taking the place of an earlier one in both. So they agree record by record, whatever the
  records are (`tableBy_get?`), and the adapter that signs or verifies is that of the record the
  lookup finds.
* The list of offered schemes is another matter: a scheme that comes twice is listed once. It is the
  list of the records' schemes because no two records of a reachable registry share one
  (`supportedSchemes_ofRecords`).

`handshake_ofHistory` puts the views together, for the registry after any history of calls. Since
an override may take several records away at once, this is also where a stale adapter or scheme
would show.
-/

namespace SignatureCatalog

variable {ω β κ : Type} [DecidableEq κ] [Ord κ]

/-! ### Tables of adapters -/

namespace SignatureDispatch

/-- The adapters of records, each under one of its identifiers. -/
def tableBy (identifier : Record ω β → κ) (records : List (Record ω β)) :
    FiniteMap κ (Adapter ω β) :=
  records.foldl (fun table record => table.insert (identifier record) record.adapter) ∅

theorem tableBy_append_singleton (identifier : Record ω β → κ) (records : List (Record ω β))
    (record : Record ω β) :
    tableBy identifier (records ++ [record]) =
      (tableBy identifier records).insert (identifier record) record.adapter := by
  simp [tableBy]

/-- A table holds the adapter of the record that a lookup by the same identifier finds. -/
theorem tableBy_get? (identifier : Record ω β → κ) (records : List (Record ω β)) (x : κ) :
    (tableBy identifier records).get? x =
      (Registry.lookupBy identifier records x).map (·.adapter) := by
  -- by induction from the end, where both put the last record under its identifier
  induction records using List.reverseRecOn with
  | nil => rfl
  | append_singleton records record ih =>
    rw [tableBy_append_singleton, FiniteMap.get?_insert, Registry.lookupBy_append_singleton, ih]
    by_cases h : x = identifier record
    · rw [if_pos h, if_pos h, Option.map_some]
    · rw [if_neg h, if_neg h]

theorem signers_ofRecords (records : List (Record ω β)) :
    (ofRecords records).signers = tableBy (·.name) records := by
  induction records using List.reverseRecOn with
  | nil => rfl
  | append_singleton records record ih =>
    rw [ofRecords_append_singleton, tableBy_append_singleton, ← ih, insert]

theorem verifiers_ofRecords (records : List (Record ω β)) :
    (ofRecords records).verifiers = tableBy (·.scheme) records := by
  induction records using List.reverseRecOn with
  | nil => rfl
  | append_singleton records record ih =>
    rw [ofRecords_append_singleton, tableBy_append_singleton, ← ih, insert]

/-- Where no scheme comes twice, the schemes of the records are offered, in their order. -/
theorem supportedSchemes_ofRecords {records : List (Record ω β)}
    (nodup : (records.map (·.scheme)).Nodup) :
    (ofRecords records).supportedSchemes = records.map (·.scheme) := by
  -- the list is made one record at a time, and a scheme is added if the table has none for it
  induction records using List.reverseRecOn with
  | nil => rfl
  | append_singleton records record ih =>
    rw [List.map_append, List.nodup_append] at nodup
    obtain ⟨hrecords, -, hfresh⟩ := nodup
    -- the new scheme is not among the earlier ones, so the table does not know it yet
    have hnew : (ofRecords records).verifiers.contains record.scheme = false := by
      have hnone : Registry.lookupBy (·.scheme) records record.scheme = none := by
        rw [Registry.lookupBy_eq_none_iff]
        intro other hother
        exact hfresh _ (List.mem_map_of_mem hother) _ (by simp)
      rw [FiniteMap.contains, verifiers_ofRecords, tableBy_get?, hnone]
      rfl
    rw [ofRecords_append_singleton, insert, hnew, ih hrecords, List.map_append]
    simp

end SignatureDispatch

namespace SignatureScheme

/-- A legacy pair stands for the code point with these two octets. -/
theorem toNat_codePoint_ofPair (p : SignatureAndHash) :
    (ofPair p).codePoint.toNat = 256 * p.hash.toNat + p.signature.toNat := by
  have hh := p.hash.toNat_lt
  have hs := p.signature.toNat_lt
  simp only [ofPair, ofOctets, UInt16.toNat_ofNat']
  omega

/-- The octets of a legacy pair are the high and the low octet of the code point. -/
theorem toNat_pair (s : SignatureScheme) :
    (s.pair.hash.toNat, s.pair.signature.toNat) =
      (s.codePoint.toNat / 256, s.codePoint.toNat % 256) := by
  have hc := s.codePoint.toNat_lt
  simp only [pair, hash, signature, UInt8.toNat_ofNat', Prod.mk.injEq]
  omega

/-- A scheme is known by its code point. -/
theorem eq_iff_toNat_codePoint {s t : SignatureScheme} :
    s = t ↔ s.codePoint.toNat = t.codePoint.toNat := by
  rw [UInt16.toNat_inj]
  obtain ⟨c⟩ := s
  obtain ⟨d⟩ := t
  exact SignatureScheme.mk.injEq c d ▸ Iff.rfl

end SignatureScheme

namespace Registry

variable {r : Registry ω β}

/-! ### Adapters and lookups -/

/-- **A table of adapters that mirrors a lookup.** It answers as the lookup does, with the adapter
in place of the record; so it holds the adapters of the records and no other. -/
structure Mirrors (records : List (Record ω β)) (identifier : Record ω β → κ)
    (lookup : κ → Except Error (Record ω β)) (adapterOf : κ → Except Error (Adapter ω β))
    (kind : κ → Identifier) : Prop where
  /-- The answer is that of the lookup. -/
  eq_lookup : ∀ x, adapterOf x = (lookup x).map (·.adapter)
  /-- Every record's adapter is found under the record's identifier. -/
  of_mem : ∀ record ∈ records, adapterOf (identifier record) = .ok record.adapter
  /-- What is found is the adapter of a record with the identifier. -/
  ok_iff : ∀ x adapter, adapterOf x = .ok adapter ↔
    ∃ record ∈ records, identifier record = x ∧ record.adapter = adapter
  /-- Nothing is found exactly where the lookup finds nothing, and the error says what was asked
  for. -/
  error_iff : ∀ x e, adapterOf x = .error e ↔
    e = .notFound (kind x) ∧ lookup x = .error (.notFound (kind x))

omit [Ord κ] in
/-- An exact lookup is mirrored by any table that answers as it does. -/
theorem ExactLookup.mirrors {records : List (Record ω β)} {identifier : Record ω β → κ}
    {index : FiniteMap κ Nat} {lookup : κ → Except Error (Record ω β)} {kind : κ → Identifier}
    (exact : ExactLookup records identifier index lookup kind)
    {adapterOf : κ → Except Error (Adapter ω β)}
    (heq : ∀ x, adapterOf x = (lookup x).map (·.adapter)) :
    Mirrors records identifier lookup adapterOf kind where
  eq_lookup := heq
  of_mem := by
    intro record hmem
    rw [heq, (exact.found_iff _ _).mpr ⟨hmem, rfl⟩]
    rfl
  ok_iff := by
    intro x adapter
    rw [heq]
    constructor
    · intro h
      cases hx : lookup x with
      | error e => rw [hx] at h; cases h
      | ok record =>
        rw [hx] at h
        obtain ⟨hmem, hid⟩ := (exact.found_iff x record).mp hx
        exact ⟨record, hmem, hid, Except.ok.inj h⟩
    · rintro ⟨record, hmem, hid, rfl⟩
      rw [(exact.found_iff x record).mpr ⟨hmem, hid⟩]
      rfl
  error_iff := by
    intro x e
    rw [heq]
    cases hx : lookup x with
    | ok record => simp [Except.map]
    | error e' =>
      -- the only error of an exact lookup is that the identifier was not found
      obtain ⟨rfl, -⟩ := (exact.notFound_iff x e').mp hx
      simp [Except.map, eq_comm]

theorem Reachable.signer_eq (h : r.Reachable) (name : String) :
    r.dispatch.signer name = (r.lookupName name).map (·.adapter) := by
  -- the signers are one table and the lookup goes through one index, both made from the records
  have htable := SignatureDispatch.tableBy_get? (·.name) r.records name
  rw [← SignatureDispatch.signers_ofRecords] at htable
  have hlookup : (ofRecords r.records).recordAt? ((ofRecords r.records).byName.get? name) =
      lookupBy (·.name) r.records name := rfl
  rw [h.eq_ofRecords, SignatureDispatch.signer, lookupName, hlookup, ofRecords, htable]
  cases lookupBy (·.name) r.records name <;> rfl

theorem Reachable.verifier_eq (h : r.Reachable) (scheme : SignatureScheme) :
    r.dispatch.verifier scheme = (r.lookupScheme scheme).map (·.adapter) := by
  have htable := SignatureDispatch.tableBy_get? (·.scheme) r.records scheme
  rw [← SignatureDispatch.verifiers_ofRecords] at htable
  have hlookup : (ofRecords r.records).recordAt? ((ofRecords r.records).byScheme.get? scheme) =
      lookupBy (·.scheme) r.records scheme := rfl
  rw [h.eq_ofRecords, SignatureDispatch.verifier, lookupScheme, hlookup, ofRecords, htable]
  cases lookupBy (·.scheme) r.records scheme <;> rfl

/-! ### Schemes and legacy pairs -/

theorem Reachable.supportedSchemes_eq (h : r.Reachable) :
    r.dispatch.supportedSchemes = r.records.map (·.scheme) := by
  have htables : r.dispatch = .ofRecords r.records := congrArg Registry.dispatch h.eq_ofRecords
  rw [htables]
  exact SignatureDispatch.supportedSchemes_ofRecords h.exactLookup_scheme.distinct

/-- The scheme index knows the schemes that are offered. -/
theorem Reachable.supportsScheme_iff (h : r.Reachable) (scheme : SignatureScheme) :
    r.supportsScheme scheme = true ↔ scheme ∈ r.dispatch.supportedSchemes := by
  rw [h.supportsScheme_eq, h.supportedSchemes_eq, List.mem_map]
  constructor
  · intro hok
    cases hfound : r.lookupScheme scheme with
    | error e => rw [hfound] at hok; cases hok
    -- being supported is only that the lookup succeeds, and it succeeds with a record
    | ok record => exact ⟨record, (h.exactLookup_scheme.found_iff scheme record).mp hfound⟩
  · rintro ⟨record, hrecord⟩
    rw [(h.exactLookup_scheme.found_iff scheme record).mpr hrecord]
    rfl

theorem Reachable.signatureAndHashPairs_eq (h : r.Reachable) :
    r.signatureAndHashPairs = r.dispatch.supportedSchemes.map (·.pair) := by
  rw [h.supportedSchemes_eq, List.map_map]
  rfl

/-! ### Any history -/

/-- **The handshake sees the records, and nothing else.** Whatever was registered, refused or
overridden, the schemes that are offered are those of the records in their order, none of them
twice; the legacy pairs are the same list, each code point split into its octets; the adapters that
sign and verify are those that the lookups find; and a legacy pair is supported exactly if it is
listed, which is to say if the scheme with these octets is offered. -/
theorem handshake_ofHistory (history : List (Change ω β × ω)) :
    let r := ofHistory history
    (r.dispatch.supportedSchemes = r.records.map (·.scheme) ∧
      r.dispatch.supportedSchemes.Nodup) ∧
    (r.signatureAndHashPairs.map fun p => (p.hash.toNat, p.signature.toNat)) =
      (r.dispatch.supportedSchemes.map fun s =>
        (s.codePoint.toNat / 256, s.codePoint.toNat % 256)) ∧
    Mirrors r.records (·.name) r.lookupName r.dispatch.signer .name ∧
    Mirrors r.records (·.scheme) r.lookupScheme r.dispatch.verifier .scheme ∧
    ∀ hash signature : UInt8,
      (r.supportsPair ⟨hash, signature⟩ = true ↔ ⟨hash, signature⟩ ∈ r.signatureAndHashPairs) ∧
      (r.supportsPair ⟨hash, signature⟩ = true ↔
        ∃ scheme ∈ r.dispatch.supportedSchemes,
          scheme.codePoint.toNat = 256 * hash.toNat + signature.toNat) := by
  intro r
  have h : r.Reachable := reachable_ofHistory history
  refine ⟨⟨h.supportedSchemes_eq, ?_⟩, ?_, h.exactLookup_name.mirrors h.signer_eq,
    h.exactLookup_scheme.mirrors h.verifier_eq, fun hash signature => ⟨?_, ?_⟩⟩
  · rw [h.supportedSchemes_eq]
    exact h.exactLookup_scheme.distinct
  · rw [h.signatureAndHashPairs_eq, List.map_map]
    exact List.map_congr_left fun scheme _ => scheme.toNat_pair
  · rw [supportsPair, h.supportsScheme_iff, h.signatureAndHashPairs_eq, List.mem_map]
    -- splitting and joining are inverse to each other, so the pair has one scheme
    constructor
    · intro hmem
      exact ⟨_, hmem, SignatureScheme.pair_ofPair _⟩
    · rintro ⟨scheme, hmem, hpair⟩
      rwa [← hpair, SignatureScheme.ofPair_pair]
  · rw [supportsPair, h.supportsScheme_iff]
    constructor
    · intro hmem
      exact ⟨_, hmem, SignatureScheme.toNat_codePoint_ofPair _⟩
    · rintro ⟨scheme, hmem, hcode⟩
      have heq : scheme = .ofPair ⟨hash, signature⟩ := by
        -- a scheme is its code point, and these octets make up one code point
        rw [SignatureScheme.eq_iff_toNat_codePoint, hcode, SignatureScheme.toNat_codePoint_ofPair]
      rwa [← heq]

end Registry

end SignatureCatalog
