import SignatureCatalog.Proofs.Provider.Atomic
import SignatureCatalog.Proofs.Provider.Configure

/-!
# Finding an algorithm in a table

A text finds an algorithm in a table in one of two ways. It may be the name of an engine that is
held. Otherwise it is read as an object identifier, in the spelling that its beginning shows, and
the alias for the identifier in that spelling leads to a name, which then has to be that of an
engine. Names are arbitrary, so that a name may look like an identifier, and an identifier has many
texts, since a number may begin with zeros and an empty one counts as zero.

`AliasForm.Spells` says which texts spell an identifier. No text spells two (`spells_unique`), so
the second way leads to one alias at most (`aliasTarget?_eq_some_iff`), and
`resolveSignature_eq_some_iff` has both ways together. What is found in a table after it has been
configured is then told by what is held under the keys of the records (`configured_finds`): a
spelling of a record's identifier leads to the record's engine, unless it is itself a name, and
where the table was empty nothing else is found.
-/

namespace SignatureCatalog

variable {ω β : Type}

/-! ### Spellings -/

/-- The text spells the object identifier in this form: with the lead of the form before any dotted
text that is read as the identifier, canonical or not. -/
def AliasForm.Spells (form : AliasForm) (s : String) (oid : Oid) : Prop :=
  ∃ text, Oid.parse text = .ok oid ∧ s = form.lead ++ text

/-- A text that is read as an identifier begins with a digit. -/
theorem Oid.exists_digit_of_parse {text : String} {oid : Oid} (h : parse text = .ok oid) :
    ∃ octet rest, text.toUTF8.data.toList = octet :: rest ∧ octet.toNat ≤ 0x39 := by
  unfold parse at h
  cases hoctets : text.toUTF8.data.toList with
  | nil => rw [hoctets] at h; cases h
  | cons octet rest =>
    refine ⟨octet, rest, rfl, ?_⟩
    rw [hoctets, parseOctets] at h
    by_contra hlarge
    rw [if_neg fun digit => hlarge digit.2] at h
    cases h

namespace ProviderTable

variable {t : ProviderTable ω β} {s name : String} {oid : Oid} {form : AliasForm}

/-! ### The lead -/

theorem afterLead?_append (text : String) : afterLead? ("OID." ++ text) = some text := by
  unfold afterLead?
  rw [String.toList_append]
  show some (String.ofList text.toList) = some text
  rw [String.ofList_toList]

/-- What stands behind the lead is the rest of the text. -/
theorem eq_append_of_afterLead? {text : String} (h : afterLead? s = some text) :
    s = "OID." ++ text := by
  unfold afterLead? at h
  split at h
  · next rest heq =>
    obtain rfl : String.ofList rest = text := Option.some.inj h
    apply String.toList_injective
    calc s.toList = "OID.".toList ++ rest := heq
      _ = "OID.".toList ++ (String.ofList rest).toList := by rw [String.toList_ofList (l := rest)]
      _ = ("OID." ++ String.ofList rest).toList := String.toList_append.symm
  · cases h

/-- A text that is read as an identifier has no lead before it. -/
theorem afterLead?_of_parse (h : Oid.parse s = .ok oid) : afterLead? s = none := by
  cases hlead : afterLead? s with
  | none => rfl
  | some text =>
    obtain ⟨octet, rest, hoctets, hdigit⟩ := Oid.exists_digit_of_parse h
    -- the lead begins with the letter `O`, which comes after all digits
    have hletter :
        s.toUTF8.data.toList = 0x4F :: ("ID.".toUTF8.data ++ text.toUTF8.data).toList := by
      rw [eq_append_of_afterLead? hlead, String.toUTF8, String.toByteArray_append,
        ByteArray.data_append, Array.toList_append, Array.toList_append]
      rfl
    rw [hletter] at hoctets
    obtain ⟨rfl, -⟩ := List.cons.inj hoctets
    exact absurd hdigit (by decide)

theorem spells_dotted_iff : AliasForm.dotted.Spells s oid ↔ Oid.parse s = .ok oid := by
  refine ⟨?_, fun h => ⟨s, h, String.empty_append.symm⟩⟩
  -- this form has nothing before the identifier
  intro ⟨text, hparse, hs⟩
  rw [hs, AliasForm.lead, String.empty_append, hparse]

theorem spells_prefixed_iff : AliasForm.prefixed.Spells s oid ↔
    ∃ text, afterLead? s = some text ∧ Oid.parse text = .ok oid := by
  refine ⟨?_, fun ⟨text, hlead, hparse⟩ => ⟨text, hparse, eq_append_of_afterLead? hlead⟩⟩
  intro ⟨text, hparse, hs⟩
  exact ⟨text, by rw [hs]; exact afterLead?_append text, hparse⟩

/-- **No text spells two identifiers**, nor one in two forms. -/
theorem spells_unique {form' : AliasForm} {oid' : Oid} (h : form.Spells s oid)
    (h' : form'.Spells s oid') : form = form' ∧ oid = oid' := by
  -- with the same form it is reading a text that has one outcome, and two forms never meet: what is
  -- read as an identifier has no lead
  cases form with
  | dotted =>
    have hparse := spells_dotted_iff.mp h
    cases form' with
    | dotted =>
      exact ⟨rfl, Except.ok.inj (hparse.symm.trans (spells_dotted_iff.mp h'))⟩
    | prefixed =>
      obtain ⟨text', hlead, -⟩ := spells_prefixed_iff.mp h'
      rw [afterLead?_of_parse hparse] at hlead
      cases hlead
  | prefixed =>
    obtain ⟨text, hlead, hparse⟩ := spells_prefixed_iff.mp h
    cases form' with
    | dotted =>
      rw [afterLead?_of_parse (spells_dotted_iff.mp h')] at hlead
      cases hlead
    | prefixed =>
      obtain ⟨text', hlead', hparse'⟩ := spells_prefixed_iff.mp h'
      obtain rfl : text = text' := Option.some.inj (hlead.symm.trans hlead')
      exact ⟨rfl, Except.ok.inj (hparse.symm.trans hparse')⟩

/-! ### What is found -/

theorem engineNamed?_eq_some_iff {b : EngineBinding ω β} :
    t.engineNamed? name = some b ↔ t.get? (.service .signature name) = some (.engine b) := by
  unfold engineNamed?
  split
  · next binding held => rw [held, Option.some.injEq, Option.some.injEq, ProviderEntry.engine.injEq]
  · next other => exact iff_of_false nofun (other b)

/-- A spelling of an identifier leads where the alias for the identifier in that form does. -/
theorem aliasTarget?_of_spells (h : form.Spells s oid) :
    t.aliasTarget? s = some name ↔ t.get? (.alias .signature oid form) = some (.alias name) := by
  unfold aliasTarget?
  cases form with
  | dotted =>
    have hparse := spells_dotted_iff.mp h
    rw [afterLead?_of_parse hparse]
    simp only [hparse]
    split
    · next held => rw [held, Option.some.injEq, Option.some.injEq, ProviderEntry.alias.injEq]
    · next other => exact iff_of_false (Option.some_ne_none name).symm (other name)
  | prefixed =>
    obtain ⟨text, hlead, hparse⟩ := spells_prefixed_iff.mp h
    rw [hlead]
    simp only [hparse]
    split
    · next held => rw [held, Option.some.injEq, Option.some.injEq, ProviderEntry.alias.injEq]
    · next other => exact iff_of_false (Option.some_ne_none name).symm (other name)

/-- Nothing but a spelling of an identifier leads anywhere. -/
theorem exists_spells_of_aliasTarget? (h : t.aliasTarget? s = some name) :
    ∃ form oid, AliasForm.Spells form s oid := by
  unfold aliasTarget? at h
  cases hlead : afterLead? s with
  | none =>
    rw [hlead] at h
    cases hparse : Oid.parse s with
    | error e => simp only [hparse] at h; cases h
    | ok oid => exact ⟨.dotted, oid, spells_dotted_iff.mpr hparse⟩
  | some text =>
    rw [hlead] at h
    cases hparse : Oid.parse text with
    | error e => simp only [hparse] at h; cases h
    | ok oid => exact ⟨.prefixed, oid, spells_prefixed_iff.mpr ⟨text, hlead, hparse⟩⟩

theorem aliasTarget?_eq_some_iff :
    t.aliasTarget? s = some name ↔
      ∃ form oid, form.Spells s oid ∧ t.get? (.alias .signature oid form) = some (.alias name) := by
  constructor
  · intro h
    obtain ⟨form, oid, hspells⟩ := exists_spells_of_aliasTarget? h
    exact ⟨form, oid, hspells, (aliasTarget?_of_spells hspells).mp h⟩
  · rintro ⟨form, oid, hspells, held⟩
    exact (aliasTarget?_of_spells hspells).mpr held

/-- **Finding an algorithm**: the engine under the literal name, and only where there is none, the
engine under the name that a spelling of an identifier leads to. -/
theorem resolveSignature_eq_some_iff {b : EngineBinding ω β} :
    t.resolveSignature s = some b ↔
      t.get? (.service .signature s) = some (.engine b) ∨
        (∀ b', t.get? (.service .signature s) ≠ some (.engine b')) ∧
          ∃ form oid name, form.Spells s oid ∧
            t.get? (.alias .signature oid form) = some (.alias name) ∧
            t.get? (.service .signature name) = some (.engine b) := by
  unfold resolveSignature
  -- the literal name comes first, and whatever is found there ends the search
  cases hliteral : t.engineNamed? s with
  | some binding =>
    have held := engineNamed?_eq_some_iff.mp hliteral
    rw [held, Option.some.injEq, Option.some.injEq, ProviderEntry.engine.injEq]
    exact (or_iff_left fun free => free.1 binding rfl).symm
  | none =>
    have free : ∀ b', t.get? (.service .signature s) ≠ some (.engine b') := fun b' held => by
      rw [engineNamed?_eq_some_iff.mpr held] at hliteral
      cases hliteral
    rw [or_iff_right (free b), and_iff_right free]
    calc (t.aliasTarget? s).bind t.engineNamed? = some b
        ↔ ∃ name, t.aliasTarget? s = some name ∧ t.engineNamed? name = some b :=
          Option.bind_eq_some_iff
      _ ↔ ∃ form oid name, form.Spells s oid ∧
            t.get? (.alias .signature oid form) = some (.alias name) ∧
            t.get? (.service .signature name) = some (.engine b) := by
        simp only [aliasTarget?_eq_some_iff, engineNamed?_eq_some_iff]
        constructor
        · intro ⟨name, ⟨form, oid, hspells, haliased⟩, hbound⟩
          exact ⟨form, oid, name, hspells, haliased, hbound⟩
        · intro ⟨form, oid, name, hspells, haliased, hbound⟩
          exact ⟨name, ⟨form, oid, hspells, haliased⟩, hbound⟩

/-! ### After configuring -/

/-- **A record is found under its name and under every spelling of its identifier**, except that a
spelling which is itself the name of an engine finds that engine. -/
structure Finds (t : ProviderTable ω β) (record : Record ω β) : Prop where
  named : t.resolveSignature record.name = some (.ofRecord record)
  spelled : ∀ form s, AliasForm.Spells form s record.oid →
    (∀ b, t.get? (.service .signature s) ≠ some (.engine b)) →
      t.resolveSignature s = some (.ofRecord record)
  literal : ∀ form s, AliasForm.Spells form s record.oid →
    ∀ b, t.get? (.service .signature s) = some (.engine b) → t.resolveSignature s = some b

variable {records : List (Record ω β)} {record : Record ω β} {h : Holdings ω β}

/-- Records that have been published are found, if none of their aliases was kept. -/
theorem finds_of_published (published : Holdings.Published records h t.holdings)
    (hrecord : record ∈ records) (unkept : ∀ key ∈ record.aliasKeys, h.keeps key = false) :
    t.Finds record := by
  have engine : t.get? record.engineKey = some (.engine (.ofRecord record)) :=
    published.engine record hrecord
  refine ⟨resolveSignature_eq_some_iff.mpr (.inl engine), ?_, ?_⟩
  · intro form s hspells free
    have hkey : .alias .signature record.oid form ∈ record.aliasKeys :=
      Record.alias_mem_aliasKeys_iff.mpr rfl
    have aliased := published.aliased record hrecord _ hkey (unkept _ hkey)
    exact resolveSignature_eq_some_iff.mpr
      (.inr ⟨free, form, record.oid, record.name, hspells, aliased, engine⟩)
  · intro form s _ b held
    exact resolveSignature_eq_some_iff.mpr (.inl held)

/-- Where nothing was held before, whatever is held now was put there by a record. -/
theorem exists_record_of_get? {key : ProviderKey} {e : ProviderEntry ω β}
    (published : Holdings.Published records h t.holdings) (bare : ∀ key, h.held? key = none)
    (held : t.get? key = some e) :
    (∃ record ∈ records, key = record.engineKey) ∨ ∃ record ∈ records, key ∈ record.aliasKeys := by
  -- a key that belongs to no record is as it was, and nothing was there
  rcases Holdings.key_cases records key with hengine | halias | hothers
  · exact .inl hengine
  · exact .inr halias
  · have untouched : t.get? key = h.held? key := published.other key hothers
    rw [untouched, bare key] at held
    cases held

/-- Under a name there is then the engine of a record with the name. -/
theorem exists_record_of_engine {b : EngineBinding ω β}
    (published : Holdings.Published records h t.holdings) (bare : ∀ key, h.held? key = none)
    (held : t.get? (.service .signature name) = some (.engine b)) :
    ∃ record ∈ records, name = record.name := by
  rcases exists_record_of_get? published bare held with
    ⟨record, hrecord, hkey⟩ | ⟨record, -, hkey⟩
  · exact ⟨record, hrecord, (Record.eq_engineKey_iff.mp hkey).symm⟩
  · exact absurd hkey Record.service_notMem_aliasKeys

/-- What is found then is found under the name of a record, or under a spelling of its
identifier. -/
theorem exists_record_of_resolveSignature {b : EngineBinding ω β}
    (published : Holdings.Published records h t.holdings) (bare : ∀ key, h.held? key = none)
    (found : t.resolveSignature s = some b) :
    ∃ record ∈ records, s = record.name ∨ ∃ form, AliasForm.Spells form s record.oid := by
  rcases resolveSignature_eq_some_iff.mp found with held | ⟨-, form, oid, name, hspells, held, -⟩
  · obtain ⟨record, hrecord, hname⟩ := exists_record_of_engine published bare held
    exact ⟨record, hrecord, .inl hname⟩
  · rcases exists_record_of_get? published bare held with
      ⟨record, -, hkey⟩ | ⟨record, hrecord, hkey⟩
    · cases hkey
    · -- the alias is that of the record's identifier, which the text spells
      rw [← Record.alias_mem_aliasKeys_iff.mp hkey] at hspells
      exact ⟨record, hrecord, .inr ⟨form, hspells⟩⟩

/-- **A configured table finds what was published into it.** Where no alias was kept, every record
is found under its name and under every spelling of its identifier, canonical or not. In a table
that held nothing before, no other text finds anything. -/
theorem configured_finds (history : List (Registry.Change ω β × ω)) (t : ProviderTable ω β)
    (leniency : Leniency) :
    let r := Registry.ofHistory history
    let done := (provider.configure leniency r).run t
    done.value = .ok () →
      (∀ record ∈ r.records, ∀ key ∈ record.aliasKeys, t.holdings.keeps key = false) →
        (∀ record ∈ r.records, done.world.Finds record) ∧
          ((∀ key, t.get? key = none) → ∀ s,
            (∀ record ∈ r.records,
              s ≠ record.name ∧ ∀ form, ¬AliasForm.Spells form s record.oid) →
            done.world.resolveSignature s = none) := by
  intro r done configured unkept
  have published : Holdings.Published r.records t.holdings done.world.holdings :=
    honest.published_of_configure (Registry.reachable_ofHistory history) configured
  refine ⟨fun record hrecord => finds_of_published published hrecord (unkept record hrecord), ?_⟩
  intro bare s unknown
  -- had anything been found, the text would be known after all
  by_contra found
  obtain ⟨b, found⟩ := Option.ne_none_iff_exists'.mp found
  obtain ⟨record, hrecord, hname | ⟨form, hspells⟩⟩ :=
    exists_record_of_resolveSignature published bare found
  · exact (unknown record hrecord).1 hname
  · exact (unknown record hrecord).2 form hspells

/-- A name that looks like an identifier: the algorithm of 1.2.3.4 is called `1.2.3.5`, which is the
identifier of the algorithm `B`. The text `1.2.3.5` finds the first, while every other spelling of
1.2.3.5 finds `B`. -/
theorem configured_finds_name_like_identifier :
    let scheme (oid : Oid) := Sample.HashScheme.adapter (ω := Unit) id ⟨oid, .flat⟩
    let a : Record Unit Sample.KeyBody :=
      ⟨⟨"1.2.3.5", ⟨[0x2a, 0x03, 0x04]⟩, ⟨1⟩⟩, scheme ⟨[0x2a, 0x03, 0x04]⟩ "a", .flat⟩
    let b : Record Unit Sample.KeyBody :=
      ⟨⟨"B", ⟨[0x2a, 0x03, 0x05]⟩, ⟨2⟩⟩, scheme ⟨[0x2a, 0x03, 0x05]⟩ "b", .flat⟩
    let history : List (Registry.Change Unit Sample.KeyBody × Unit) :=
      [(.register a.toIdentity a.adapter, ()), (.register b.toIdentity b.adapter, ())]
    let done := (provider.configure .strict (.ofHistory history)).run (.empty true)
    done.value = .ok () ∧
      done.world.resolveSignature "1.2.3.5" = some (.ofRecord a) ∧
      done.world.resolveSignature "OID.1.2.3.5" = some (.ofRecord b) ∧
      done.world.resolveSignature "1.2.03.5" = some (.ofRecord b) ∧
      done.world.resolveSignature "1.2.3.6" = none := by
  intro scheme a b history done
  have reachable := Registry.reachable_ofHistory history
  have records : (Registry.ofHistory history).records = [a, b] := rfl
  have configured : done.value = .ok () := (honest.publishAll_of_clear reachable.distinct
    (fun record _ => removable_holdings_engineKey record) (fun _ _ _ _ _ => rfl)
    (.empty true) rfl).1
  obtain ⟨finds, nothingElse⟩ :=
    configured_finds history (.empty true) .strict configured fun _ _ _ _ => rfl
  have published := honest.published_of_configure reachable configured
  rw [records] at finds nothingElse published
  -- the names that are taken are the two names of the records
  have free (s : String) (ha : s ≠ a.name) (hb : s ≠ b.name) (binding : EngineBinding Unit _) :
      done.world.get? (.service .signature s) ≠ some (.engine binding) := by
    intro held
    obtain ⟨record, hrecord, hname⟩ := exists_record_of_engine published (fun _ => rfl) held
    obtain rfl | hrecord := List.mem_cons.mp hrecord
    · exact ha hname
    · rw [List.mem_singleton.mp hrecord] at hname
      exact hb hname
  have findsA : done.world.Finds a := finds a List.mem_cons_self
  have findsB : done.world.Finds b := finds b (List.mem_cons_of_mem _ List.mem_cons_self)
  have lead : AliasForm.Spells .prefixed "OID.1.2.3.5" b.oid := ⟨"1.2.3.5", by decide +kernel, rfl⟩
  have zero : AliasForm.Spells .dotted "1.2.03.5" b.oid := ⟨"1.2.03.5", by decide +kernel, rfl⟩
  have unknown : AliasForm.Spells .dotted "1.2.3.6" ⟨[0x2a, 0x03, 0x06]⟩ :=
    ⟨"1.2.3.6", by decide +kernel, rfl⟩
  refine ⟨configured, findsA.named, findsB.spelled _ _ lead (free _ (by decide) (by decide)),
    findsB.spelled _ _ zero (free _ (by decide) (by decide)),
    nothingElse (fun _ => rfl) "1.2.3.6" fun record hrecord => ?_⟩
  -- the text spells an identifier of its own, and so none of the two
  have other (oid : Oid) (ne : (⟨[0x2a, 0x03, 0x06]⟩ : Oid) ≠ oid) (form : AliasForm) :
      ¬form.Spells "1.2.3.6" oid := fun spells => ne (spells_unique unknown spells).2
  obtain rfl | hrecord := List.mem_cons.mp hrecord
  · exact ⟨by decide, other _ (by decide)⟩
  · obtain rfl := List.mem_singleton.mp hrecord
    exact ⟨by decide, other _ (by decide)⟩

end ProviderTable

end SignatureCatalog
