import SignatureCatalog.Proofs.Provider.Resolution

/-!
# Making an engine for a text

A table makes an engine for the texts under which it finds algorithms. A text that finds nothing is
an error, and the error tells an identifier that is malformed from one that is not known. The two
are told apart before anything is looked up, however: where a text begins with `OID.`, the rest is
read first, and if that fails nothing else is tried.

`Instantiates` has everything that may come of a text, and `signatureEngine_eq_iff` says that the
table does just that. So finding and making agree (`FollowsResolution`) except for a text that finds
something although what stands behind its `OID.` is malformed. Such a text is a literal name, since
it spells no identifier (`get?_of_malformed`). Nothing keeps it from being registered and published,
and `signatureEngine_follows_resolution_iff` says what becomes of it: it is found and cannot be
instantiated.
-/

namespace SignatureCatalog.ProviderTable

variable {ω β : Type} {t : ProviderTable ω β} {s : String} {e : Oid.ParseError}
  {b : EngineBinding ω β}

/-! ### Malformed identifiers -/

/-- What stands behind `OID.` cannot be read as an identifier, for the given reason. -/
def Malformed (s : String) (e : Oid.ParseError) : Prop :=
  ∃ text, s = "OID." ++ text ∧ Oid.parse text = .error e

theorem malformed_iff : Malformed s e ↔ (afterLead? s).map Oid.parse = some (.error e) := by
  constructor
  · rintro ⟨text, rfl, hparse⟩
    rw [afterLead?_append, Option.map_some, hparse]
  · intro h
    obtain ⟨text, hlead, hparse⟩ := Option.map_eq_some_iff.mp h
    exact ⟨text, eq_append_of_afterLead? hlead, hparse⟩

/-- There is one reason at most. -/
theorem Malformed.unique {e' : Oid.ParseError} (h : Malformed s e) (h' : Malformed s e') :
    e = e' :=
  Except.error.inj (Option.some.inj ((malformed_iff.mp h).symm.trans (malformed_iff.mp h')))

/-- A malformed text spells no identifier. -/
theorem Malformed.not_spells (h : Malformed s e) (form : AliasForm) (oid : Oid) :
    ¬form.Spells s oid := by
  intro hspells
  obtain ⟨text, hs, hparse⟩ := h
  have hlead : afterLead? s = some text := by
    rw [hs]
    exact afterLead?_append text
  cases form with
  | dotted =>
    -- an identifier by itself does not begin with the lead, as it begins with a digit
    rw [afterLead?_of_parse (spells_dotted_iff.mp hspells)] at hlead
    cases hlead
  | prefixed =>
    -- behind the lead there is one text, and it cannot both be read and not be read
    obtain ⟨text', hlead', hparse'⟩ := spells_prefixed_iff.mp hspells
    obtain rfl : text = text' := Option.some.inj (hlead.symm.trans hlead')
    rw [hparse] at hparse'
    cases hparse'

/-- **What a malformed text finds is held under it as a name.** -/
theorem get?_of_malformed (h : Malformed s e) (found : t.resolveSignature s = some b) :
    t.get? (.service .signature s) = some (.engine b) := by
  -- what is found is held under the text as a name, or under an identifier that it spells
  rcases resolveSignature_eq_some_iff.mp found with held | ⟨-, form, oid, name, hspells, -⟩
  · exact held
  · exact absurd hspells (h.not_spells form oid)

/-! ### What comes of a text -/

/-- What comes of asking a table for an engine. -/
inductive Instantiates (t : ProviderTable ω β) (s : String) :
    Except Error (SignatureEngine ω β) → Prop
  /-- The identifier behind `OID.` is malformed, whatever the table holds. -/
  | malformed (e : Oid.ParseError) : Malformed s e → Instantiates t s (.error (.invalidOid e))
  /-- Something is found: a fresh engine with its name and its adapter. -/
  | found (b : EngineBinding ω β) : (∀ e, ¬Malformed s e) → t.resolveSignature s = some b →
    Instantiates t s (.ok (.new b.name b.adapter))
  /-- Nothing is found: the text is given back. -/
  | unknown : (∀ e, ¬Malformed s e) → t.resolveSignature s = none →
    Instantiates t s (.error (.notFound (.name s)))

theorem signatureEngine_of_malformed (h : Malformed s e) :
    t.signatureEngine s = .error (.invalidOid e) := by
  rw [signatureEngine, malformed_iff.mp h]

/-- Where there is no malformed identifier, the table is searched. -/
theorem signatureEngine_of_not_malformed (h : ∀ e, ¬Malformed s e) :
    t.signatureEngine s =
      match t.resolveSignature s with
      | some b => .ok b.newEngine
      | none => .error (.notFound (.name s)) := by
  unfold signatureEngine
  split
  · next e hmalformed => exact absurd (malformed_iff.mpr hmalformed) (h e)
  · rfl

theorem instantiates_signatureEngine (t : ProviderTable ω β) (s : String) :
    t.Instantiates s (t.signatureEngine s) := by
  by_cases hmalformed : ∃ e, Malformed s e
  -- the lead is looked at first, and the table only if nothing is wrong behind it
  · obtain ⟨e, h⟩ := hmalformed
    rw [signatureEngine_of_malformed h]
    exact .malformed e h
  · have h : ∀ e, ¬Malformed s e := not_exists.mp hmalformed
    rw [signatureEngine_of_not_malformed h]
    cases hfound : t.resolveSignature s with
    | some b => exact .found b h hfound
    | none => exact .unknown h hfound

/-- One thing comes of a text. -/
theorem Instantiates.unique {result result' : Except Error (SignatureEngine ω β)}
    (h : t.Instantiates s result) (h' : t.Instantiates s result') : result = result' := by
  cases h with
  | malformed e hmalformed =>
    cases h' with
    | malformed e' hmalformed' => rw [hmalformed.unique hmalformed']
    | found b h' => exact absurd hmalformed (h' e)
    | unknown h' => exact absurd hmalformed (h' e)
  | found b h hfound =>
    cases h' with
    | malformed e hmalformed => exact absurd hmalformed (h e)
    | found b' _ hfound' => rw [Option.some.inj (hfound.symm.trans hfound')]
    | unknown _ hnone => rw [hfound] at hnone; cases hnone
  | unknown h hnone =>
    cases h' with
    | malformed e hmalformed => exact absurd hmalformed (h e)
    | found b _ hfound => rw [hfound] at hnone; cases hnone
    | unknown => rfl

/-- **Asking a table for an engine comes to this and to nothing else.** -/
theorem signatureEngine_eq_iff {result : Except Error (SignatureEngine ω β)} :
    t.signatureEngine s = result ↔ t.Instantiates s result := by
  refine ⟨?_, fun h => (instantiates_signatureEngine t s).unique h⟩
  rintro rfl
  exact instantiates_signatureEngine t s

/-! ### Making and finding -/

/-- An engine is made for what is found, and for nothing else; of a text that finds nothing, the
error says whether an identifier behind `OID.` is malformed. -/
structure FollowsResolution (t : ProviderTable ω β) (s : String) : Prop where
  found : ∀ b, t.resolveSignature s = some b → t.signatureEngine s = .ok (.new b.name b.adapter)
  malformed : t.resolveSignature s = none → ∀ e, Malformed s e →
    t.signatureEngine s = .error (.invalidOid e)
  unknown : t.resolveSignature s = none → (∀ e, ¬Malformed s e) →
    t.signatureEngine s = .error (.notFound (.name s))

/-- Making follows finding exactly where nothing malformed is found. -/
theorem followsResolution_iff :
    t.FollowsResolution s ↔ ∀ e, Malformed s e → t.resolveSignature s = none := by
  constructor
  -- a malformed text that found something would have to be instantiated, and is an error
  · intro h e hmalformed
    by_contra hfound
    obtain ⟨b, hfound⟩ := Option.ne_none_iff_exists'.mp hfound
    have hok := h.found b hfound
    rw [signatureEngine_of_malformed hmalformed] at hok
    cases hok
  · intro h
    refine ⟨fun b hfound => ?_, fun _ e hmalformed => signatureEngine_of_malformed hmalformed,
      fun hnone hwell => signatureEngine_eq_iff.mpr (.unknown hwell hnone)⟩
    refine signatureEngine_eq_iff.mpr (.found b (fun e hmalformed => ?_) hfound)
    rw [h e hmalformed] at hfound
    cases hfound

/-- What becomes of the name of a record in a table into which it has been published. -/
structure InstantiatesOwnName (t : ProviderTable ω β) (record : Record ω β) : Prop where
  found : t.resolveSignature record.name = some (.ofRecord record)
  instantiated : (∀ e, ¬Malformed record.name e) →
    t.signatureEngine record.name = .ok (.new record.name record.adapter)
  malformed : ∀ e, Malformed record.name e →
    t.signatureEngine record.name = .error (.invalidOid e)

theorem instantiatesOwnName_of_published {records : List (Record ω β)} {record : Record ω β}
    {h : Holdings ω β} (published : Holdings.Published records h t.holdings)
    (hrecord : record ∈ records) : t.InstantiatesOwnName record := by
  have held : t.get? record.engineKey = some (.engine (.ofRecord record)) :=
    published.engine record hrecord
  have found : t.resolveSignature record.name = some (.ofRecord record) :=
    resolveSignature_eq_some_iff.mpr (.inl held)
  exact ⟨found, fun hwell => signatureEngine_eq_iff.mpr (.found _ hwell found),
    fun _ hmalformed => signatureEngine_of_malformed hmalformed⟩

/-- **Making an engine follows finding, except for names that look like a malformed identifier.**
Of any text it is settled what comes; making and finding agree unless the text is the name of an
engine and has a malformed identifier behind `OID.`; and an algorithm that has been published is
always found under its name, while it can be instantiated by it only if the name is none of
these. -/
theorem signatureEngine_follows_resolution_iff (t : ProviderTable ω β) (s : String) :
    t.Instantiates s (t.signatureEngine s) ∧
      (t.FollowsResolution s ↔
        ¬∃ e b, Malformed s e ∧ t.get? (.service .signature s) = some (.engine b)) ∧
      ∀ (history : List (Registry.Change ω β × ω)) (leniency : Leniency),
        let r := Registry.ofHistory history
        let done := (provider.configure leniency r).run t
        done.value = .ok () → ∀ record ∈ r.records, done.world.InstantiatesOwnName record := by
  refine ⟨instantiates_signatureEngine t s, ?_, ?_⟩
  · rw [followsResolution_iff]
    constructor
    · rintro h ⟨e, b, hmalformed, held⟩
      -- an engine under the text itself is what the text finds
      have hfound : t.resolveSignature s = some b := resolveSignature_eq_some_iff.mpr (.inl held)
      rw [h e hmalformed] at hfound
      cases hfound
    · intro h e hmalformed
      by_contra hfound
      obtain ⟨b, hfound⟩ := Option.ne_none_iff_exists'.mp hfound
      exact h ⟨e, b, hmalformed, get?_of_malformed hmalformed hfound⟩
  · intro history leniency r done configured record hrecord
    have published : Holdings.Published r.records t.holdings done.world.holdings :=
      honest.published_of_configure (Registry.reachable_ofHistory history) configured
    exact instantiatesOwnName_of_published published hrecord

/-- The name `OID.1.2.3.5` is that of the algorithm of 1.2.3.4. What stands behind its `OID.` can be
read, so that the algorithm is instantiated by its own name. -/
theorem signatureEngine_follows_resolution_iff_name_like_identifier :
    let record : Record Unit Sample.KeyBody :=
      ⟨⟨"OID.1.2.3.5", ⟨[0x2a, 0x03, 0x04]⟩, ⟨0xfeb3⟩⟩,
        Sample.HashScheme.adapter id ⟨⟨[0x2a, 0x03, 0x04]⟩, .flat⟩ "xyz", .flat⟩
    let history : List (Registry.Change Unit Sample.KeyBody × Unit) :=
      [(.register record.toIdentity record.adapter, ())]
    let done := (provider.configure .strict (.ofHistory history)).run (.empty true)
    done.value = .ok () ∧
      done.world.signatureEngine record.name = .ok (.new record.name record.adapter) := by
  intro record history done
  have configured : done.value = .ok () := (honest.publishAll_of_clear
    (Registry.reachable_ofHistory history).distinct
    (fun record _ => removable_holdings_engineKey record) (fun _ _ _ _ _ => rfl)
    (.empty true) rfl).1
  have hrecord : record ∈ (Registry.ofHistory history).records := List.mem_cons_self
  -- what spells an identifier is not malformed, whichever identifier it is
  have spelled : AliasForm.Spells .prefixed record.name ⟨[0x2a, 0x03, 0x05]⟩ :=
    ⟨"1.2.3.5", by decide +kernel, rfl⟩
  have own := (signatureEngine_follows_resolution_iff (.empty true) record.name).2.2 history .strict
    configured record hrecord
  exact ⟨configured, own.instantiated fun _ hmalformed => hmalformed.not_spells _ _ spelled⟩

/-- The algorithm `OID.XYZ` is registered and published like any other. It is found under its name,
but no engine is made for it: `XYZ` does not begin with a digit. -/
theorem name_behind_lead_not_instantiated :
    let record : Record Unit Sample.KeyBody :=
      ⟨⟨"OID.XYZ", ⟨[0x2a, 0x03, 0x04]⟩, ⟨0xfeb3⟩⟩,
        Sample.HashScheme.adapter id ⟨⟨[0x2a, 0x03, 0x04]⟩, .flat⟩ "xyz", .flat⟩
    let history : List (Registry.Change Unit Sample.KeyBody × Unit) :=
      [(.register record.toIdentity record.adapter, ())]
    let done := (provider.configure .strict (.ofHistory history)).run (.empty true)
    done.value = .ok () ∧ (Registry.ofHistory history).records = [record] ∧
      done.world.resolveSignature "OID.XYZ" = some (.ofRecord record) ∧
      done.world.signatureEngine "OID.XYZ" = .error (.invalidOid (.digitExpected 0x58)) ∧
      ¬done.world.FollowsResolution "OID.XYZ" := by
  intro record history done
  have reachable := Registry.reachable_ofHistory history
  have records : (Registry.ofHistory history).records = [record] := rfl
  have configured : done.value = .ok () := (honest.publishAll_of_clear reachable.distinct
    (fun record _ => removable_holdings_engineKey record) (fun _ _ _ _ _ => rfl)
    (.empty true) rfl).1
  have published := honest.published_of_configure reachable configured
  have hrecord : record ∈ (Registry.ofHistory history).records := List.mem_cons_self
  have own := instantiatesOwnName_of_published published hrecord
  have malformed : Malformed "OID.XYZ" (.digitExpected 0x58) := ⟨"XYZ", rfl, by decide +kernel⟩
  refine ⟨configured, records, own.found, own.malformed _ malformed, fun follows => ?_⟩
  have hnone := followsResolution_iff.mp follows _ malformed
  rw [own.found] at hnone
  cases hnone

end SignatureCatalog.ProviderTable
