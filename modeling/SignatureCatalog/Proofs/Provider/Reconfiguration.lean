import SignatureCatalog.Proofs.Provider.Atomic
import SignatureCatalog.Proofs.Provider.Republication
import SignatureCatalog.Proofs.Registry.SameRecords

/-!
# Configuring again

Configuring reads what a table holds only to find out what is kept. So what a table holds afterwards
is told by the set of the records that were published, by what they do not touch, and by the aliases
that were kept.

`Holdings.Published` says all this of one publication, and two publications are compared through it.
They end alike if the records are the same and come in another order (`Published.unique`), and the
second one changes nothing if it follows the first: an alias that was kept is still kept, and
everything else is replaced by what is there already (`Published.again`). Where everything may be
replaced, what is held under the keys of the records does not depend on what was held before
(`Published.agreeAt_of_letsGo`).

Whether the second call succeeds at all is another matter. It does if the records only come in
another order, since whether a record is blocked is known at the start. But where aliases are not
let go, those of the first call are in the way of the second, and `strict` fails on them. This is
why `Configuration.configure_again` is about tables that let go of aliases, or about calls that are
lenient.
-/

namespace SignatureCatalog

variable {ω β : Type}

namespace Holdings

variable {h h' k k' : Holdings ω β} {leniency : Leniency} {records records' : List (Record ω β)}
  {record : Record ω β} {key : ProviderKey}

/-! ### Two publications -/

/-- What publishing records comes to is told by the set of them. -/
theorem Published.congr (published : Published records h h')
    (same : ∀ record, record ∈ records ↔ record ∈ records') : Published records' h h' where
  engine record hrecord := published.engine record ((same record).mpr hrecord)
  converter record hrecord := published.converter record ((same record).mpr hrecord)
  aliased record hrecord := published.aliased record ((same record).mpr hrecord)
  kept record hrecord := published.kept record ((same record).mpr hrecord)
  other key hkey := published.other key fun record hrecord => hkey record ((same record).mp hrecord)
  otherConverter oid hoid :=
    published.otherConverter oid fun record hrecord => hoid record ((same record).mp hrecord)
  removable := published.removable

/-- **The two hold the same under every key of the records**: engines, aliases and converters. -/
structure AgreeAt (records : List (Record ω β)) (h h' : Holdings ω β) : Prop where
  engine : ∀ record ∈ records, h'.held? record.engineKey = h.held? record.engineKey
  aliased : ∀ record ∈ records, ∀ key ∈ record.aliasKeys, h'.held? key = h.held? key
  converter : ∀ record ∈ records, h'.converter? record.oid = h.converter? record.oid

/-- Engines and converters are always those of the records, so only aliases can differ. -/
theorem Published.agreeAt (published : Published records h h') (published' : Published records k k')
    (aliased : ∀ record ∈ records, ∀ key ∈ record.aliasKeys, k'.held? key = h'.held? key) :
    AgreeAt records h' k' where
  engine record hrecord :=
    (published'.engine record hrecord).trans (published.engine record hrecord).symm
  aliased := aliased
  converter record hrecord :=
    (published'.converter record hrecord).trans (published.converter record hrecord).symm

/-- Holdings that agree under the keys of the records are equal if they agree under all others. -/
theorem AgreeAt.eq (agree : AgreeAt records h h')
    (other : ∀ key, (∀ record ∈ records, key ≠ record.engineKey ∧ key ∉ record.aliasKeys) →
      h'.held? key = h.held? key)
    (otherConverter : ∀ oid, (∀ record ∈ records, oid ≠ record.oid) →
      h'.converter? oid = h.converter? oid)
    (removable : h'.removable = h.removable) : h' = h := by
  refine Holdings.ext (funext fun key => ?_) (funext fun oid => ?_) removable
  · rcases key_cases records key with
      ⟨record, hrecord, rfl⟩ | ⟨record, hrecord, hkey⟩ | hothers
    · exact agree.engine record hrecord
    · exact agree.aliased record hrecord key hkey
    · exact other key hothers
  · by_cases howned : ∃ record ∈ records, oid = record.oid
    · obtain ⟨record, hrecord, rfl⟩ := howned
      exact agree.converter record hrecord
    · exact otherConverter oid fun record hrecord heq => howned ⟨record, hrecord, heq⟩

/-- **Publishing has one outcome.** -/
theorem Published.unique (published : Published records h h')
    (published' : Published records h k') : k' = h' := by
  have aliased : ∀ record ∈ records, ∀ key ∈ record.aliasKeys, k'.held? key = h'.held? key := by
    intro record hrecord key hkey
    cases hkept : h.keeps key with
    | true =>
      -- what was there before decides, and that is the same for both
      exact (published'.kept record hrecord key hkey hkept).trans
        (published.kept record hrecord key hkey hkept).symm
    | false =>
      exact (published'.aliased record hrecord key hkey hkept).trans
        (published.aliased record hrecord key hkey hkept).symm
  have agree : AgreeAt records h' k' := published.agreeAt published' aliased
  refine agree.eq (fun key hothers => ?_) (fun oid hothers => ?_) ?_
  · rw [published.other key hothers, published'.other key hothers]
  · rw [published.otherConverter oid hothers, published'.otherConverter oid hothers]
  · rw [published.removable, published'.removable]

/-- An alias that was kept is still kept. -/
theorem Published.keeps (published : Published records h h') (hrecord : record ∈ records)
    (hkey : key ∈ record.aliasKeys) (hkept : h.keeps key = true) : h'.keeps key = true := by
  rw [Holdings.keeps, published.kept record hrecord key hkey hkept, published.removable]
  exact hkept

/-- **Publishing a second time changes nothing.** -/
theorem Published.again (published : Published records h h')
    (published' : Published records h' k') : k' = h' := by
  have aliased : ∀ record ∈ records, ∀ key ∈ record.aliasKeys, k'.held? key = h'.held? key := by
    intro record hrecord key hkey
    cases hkept : h'.keeps key with
    | true => exact published'.kept record hrecord key hkey hkept
    | false =>
      -- it was not kept the first time either, so both times it is the record's alias
      have hfirst : h.keeps key = false := by
        rw [← Bool.not_eq_true]
        intro hfirst
        rw [published.keeps hrecord hkey hfirst] at hkept
        cases hkept
      exact (published'.aliased record hrecord key hkey hkept).trans
        (published.aliased record hrecord key hkey hfirst).symm
  exact (published.agreeAt published' aliased).eq published'.other published'.otherConverter
    published'.removable

/-- **Where everything may be replaced, nothing of what was held before shows through.** -/
theorem Published.agreeAt_of_letsGo (published : Published records h h')
    (published' : Published records k k') (letsGo : h.LetsGo) (letsGo' : k.LetsGo) :
    AgreeAt records h' k' := by
  refine published.agreeAt published' fun record hrecord key hkey => ?_
  -- both let go of the alias, so both now hold the one of the record
  have hkept := keeps_eq_false_of_removable (letsGo key)
  have hkept' := keeps_eq_false_of_removable (letsGo' key)
  rw [published.aliased record hrecord key hkey hkept,
    published'.aliased record hrecord key hkey hkept']

/-! ### What is in the way -/

theorem LetsGo.not_blocks (letsGo : h.LetsGo) : ¬h.Blocks leniency record := by
  intro hblocked
  rcases hblocked with hstuck | ⟨-, key, -, hkept⟩
  · rw [letsGo] at hstuck
    cases hstuck
  · rw [keeps_eq_false_of_removable (letsGo key)] at hkept
    cases hkept

/-- Where everything may be replaced there is nothing to warn of. -/
theorem LetsGo.keepingAlias_notMem (letsGo : h.LetsGo) (slot : Slot) (name : String) :
    .keepingAlias slot name ∉ h.publicationLog leniency records := by
  intro hmem
  obtain ⟨record, -, hmem⟩ := List.mem_flatMap.mp hmem
  have nothing : record.aliasKeys.filter h.keeps = [] := List.filter_eq_nil_iff.mpr fun key _ => by
    rw [keeps_eq_false_of_removable (letsGo key)]
    exact Bool.false_ne_true
  rw [nothing, List.map_nil, ite_self] at hmem
  cases List.mem_singleton.mp hmem

end Holdings

/-! ### Tables -/

namespace ProviderTable

variable {t : ProviderTable ω β} {leniency : Leniency} {record : Record ω β}

theorem letsGo_holdings (removable : t.refusesAliasRemoval = false) : t.holdings.LetsGo := by
  intro key
  -- what a table can refuse is the removal of aliases, and this one does not
  show (!(t.refusesAliasRemoval && key.isAlias)) = true
  rw [removable, Bool.false_and, Bool.not_false]

/-- Unless the leniency is `strict`, nothing is in the way in a table. -/
theorem not_blocks_of_lenient (lenient : leniency ≠ .strict) :
    ¬t.holdings.Blocks leniency record := by
  intro hblocked
  rcases hblocked with hstuck | ⟨hstrict, -⟩
  -- no table refuses an engine, and aliases are in the way of a strict call only
  · rw [removable_holdings_engineKey] at hstuck
    cases hstuck
  · exact lenient hstrict

end ProviderTable

namespace Configuration

open ProviderTable

/-- What a call comes to in a table. -/
def run (call : Configuration ω β) (t : ProviderTable ω β) :
    Outcome Mark (ProviderTable ω β) (Except Error Unit) :=
  (provider.configure call.leniency call.registry).run t

variable {call call' : Configuration ω β} {t : ProviderTable ω β}

theorem published_run (succeeded : (call.run t).value = .ok ()) :
    Holdings.Published call.registry.records t.holdings (call.run t).world.holdings :=
  honest.published_of_configure call.reachable succeeded

theorem value_run_eq_ok_iff : (call.run t).value = .ok () ↔
    ∀ record ∈ call.registry.records, ¬t.holdings.Blocks call.leniency record :=
  honest.publishAll_eq_ok_iff call.reachable.distinct t

theorem value_run_of_letsGo (letsGo : t.holdings.LetsGo) : (call.run t).value = .ok () :=
  value_run_eq_ok_iff.mpr fun _ _ => letsGo.not_blocks

/-- A call that succeeds leaves a table as much room as it found. -/
theorem letsGo_run (succeeded : (call.run t).value = .ok ()) (letsGo : t.holdings.LetsGo) :
    (call.run t).world.holdings.LetsGo := by
  intro key
  rw [(published_run succeeded).removable]
  exact letsGo key

/-- Where everything may be replaced, no alias is reported as kept. -/
theorem keepingAlias_notMem_of_letsGo (letsGo : t.holdings.LetsGo) (slot : Slot) (name : String) :
    .keepingAlias slot name ∉ events (call.run t).marks := by
  obtain ⟨-, -, hlog⟩ := honest.publishAll_of_clear call.reachable.distinct
    (fun record _ => letsGo record.engineKey)
    (fun _ _ _ key _ => Holdings.keeps_eq_false_of_removable (letsGo key)) t rfl
  have hlog : events (call.run t).marks =
      t.holdings.publicationLog call.leniency call.registry.records := hlog
  rw [hlog]
  exact letsGo.keepingAlias_notMem slot name

/-- A call that succeeds changes nothing when it is made again, if it succeeds again. -/
theorem holdings_run_run (succeeded : (call.run t).value = .ok ())
    (again : (call.run (call.run t).world).value = .ok ()) :
    (call.run (call.run t).world).world.holdings = (call.run t).world.holdings :=
  (published_run succeeded).again (published_run again)

/-- The order of the records decides neither whether a call succeeds nor what it leaves. -/
theorem run_of_sameRecords (leniency : call'.leniency = call.leniency)
    (same : Registry.SameRecords call.registry call'.registry)
    (succeeded : (call.run t).value = .ok ()) :
    (call'.run t).value = .ok () ∧ (call'.run t).world.holdings = (call.run t).world.holdings := by
  have succeeded' : (call'.run t).value = .ok () := by
    -- whether a record is blocked is asked of the table as it was, and so of each record alone
    refine value_run_eq_ok_iff.mpr fun record hrecord => ?_
    rw [leniency]
    exact value_run_eq_ok_iff.mp succeeded record ((same record).mpr hrecord)
  exact ⟨succeeded', ((published_run succeeded).congr same).unique (published_run succeeded')⟩

/-- Where everything may be replaced, an earlier call leaves no trace under the keys of a later
one. -/
theorem agreeAt_run (letsGo : t.holdings.LetsGo) (earlier : Configuration ω β) :
    Holdings.AgreeAt call.registry.records (call.run t).world.holdings
      (call.run (earlier.run t).world).world.holdings := by
  have between : (earlier.run t).world.holdings.LetsGo :=
    letsGo_run (value_run_of_letsGo letsGo) letsGo
  exact (published_run (value_run_of_letsGo letsGo)).agreeAt_of_letsGo
    (published_run (value_run_of_letsGo between)) letsGo between

/-- **Configuring is idempotent and blind to order.** A call that has succeeded is made again with
success, and without effect, if the table lets go of aliases or the leniency is not `strict`. A call
with the same records in another order succeeds as well, and leaves the same. And where the table
lets go of aliases, a call leaves the same under the keys of its records whichever call came
before. -/
theorem configure_again (call : Configuration ω β) (t : ProviderTable ω β) :
    ((call.run t).value = .ok () → t.refusesAliasRemoval = false ∨ call.leniency ≠ .strict →
        let twice := call.run (call.run t).world
        twice.value = .ok () ∧ twice.world.holdings = (call.run t).world.holdings ∧
          (t.refusesAliasRemoval = false →
            ∀ slot name, .keepingAlias slot name ∉ events twice.marks)) ∧
      (∀ call' : Configuration ω β, call'.leniency = call.leniency →
        Registry.SameRecords call.registry call'.registry → (call.run t).value = .ok () →
          (call'.run t).value = .ok () ∧
            (call'.run t).world.holdings = (call.run t).world.holdings) ∧
      (t.refusesAliasRemoval = false → ∀ earlier : Configuration ω β,
        let both := call.run (earlier.run t).world
        (earlier.run t).value = .ok () ∧ both.value = .ok () ∧ (call.run t).value = .ok () ∧
          Holdings.AgreeAt call.registry.records (call.run t).world.holdings
            both.world.holdings) := by
  refine ⟨?_, fun call' leniency same succeeded => run_of_sameRecords leniency same succeeded, ?_⟩
  · intro succeeded possible twice
    have again : twice.value = .ok () := by
      rcases possible with removable | lenient
      · exact value_run_of_letsGo (letsGo_run succeeded (letsGo_holdings removable))
      · exact value_run_eq_ok_iff.mpr fun _ _ => not_blocks_of_lenient lenient
    refine ⟨again, holdings_run_run succeeded again, fun removable => ?_⟩
    exact keepingAlias_notMem_of_letsGo (letsGo_run succeeded (letsGo_holdings removable))
  · intro removable earlier both
    have letsGo : t.holdings.LetsGo := letsGo_holdings removable
    have first : (earlier.run t).value = .ok () := value_run_of_letsGo letsGo
    exact ⟨first, value_run_of_letsGo (letsGo_run first letsGo), value_run_of_letsGo letsGo,
      agreeAt_run letsGo earlier⟩

/-- A table that does not let go of an alias keeps it through both calls, and whichever record comes
first; a table that does gives it to the record each time. -/
theorem configure_again_alias_kept :
    let scheme (oid : Oid) := Sample.HashScheme.adapter (ω := Unit) id ⟨oid, .flat⟩
    let a : Record Unit Sample.KeyBody :=
      ⟨⟨"A", ⟨[0x2a, 0x03, 0x04]⟩, ⟨1⟩⟩, scheme ⟨[0x2a, 0x03, 0x04]⟩ "a", .flat⟩
    let b : Record Unit Sample.KeyBody :=
      ⟨⟨"B", ⟨[0x2a, 0x03, 0x05]⟩, ⟨2⟩⟩, scheme ⟨[0x2a, 0x03, 0x05]⟩ "b", .flat⟩
    let call := ofHistory .warn
      [(.register a.toIdentity a.adapter, ()), (.register b.toIdentity b.adapter, ())]
    let swapped := ofHistory .warn
      [(.register b.toIdentity b.adapter, ()), (.register a.toIdentity a.adapter, ())]
    let key := ProviderKey.alias .keyFactory a.oid .prefixed
    let table (refuses : Bool) : ProviderTable Unit Sample.KeyBody :=
      ((ProviderTable.empty refuses).addEntry key (.alias "OLD")).2
    let once := call.run (table true)
    once.value = .ok () ∧ once.world.holdings.held? key = some (.alias "OLD") ∧
      (call.run once.world).world.holdings = once.world.holdings ∧
      (swapped.run (table true)).world.holdings = once.world.holdings ∧
      (call.run (swapped.run (table false)).world).world.holdings.held? key =
        some (.alias "A") := by
  intro scheme a b call swapped key table once
  have records : call.registry.records = [a, b] := rfl
  have records' : swapped.registry.records = [b, a] := rfl
  have same : Registry.SameRecords call.registry swapped.registry := by
    intro record
    rw [records, records']
    exact (List.Perm.swap b a []).mem_iff
  have lenient : call.leniency ≠ .strict := by decide
  have succeeded : once.value = .ok () :=
    value_run_eq_ok_iff.mpr fun _ _ => not_blocks_of_lenient lenient
  -- the table that refuses keeps `OLD` through the calls, and the other gives the alias to `A`
  have published := published_run succeeded
  have hrecord : a ∈ call.registry.records := List.mem_cons_self
  have hkey : key ∈ a.aliasKeys := Record.alias_mem_aliasKeys_iff.mpr rfl
  obtain ⟨twice, order, -⟩ := configure_again call (table true)
  obtain ⟨-, -, after⟩ := configure_again call (table false)
  obtain ⟨-, -, alone, agree⟩ := after rfl swapped
  have old : (table true).holdings.held? key = some (.alias "OLD") := rfl
  have kept : once.world.holdings.held? key = some (.alias "OLD") :=
    (published.kept a hrecord key hkey rfl).trans old
  have new : (call.run (table false)).world.holdings.held? key = some (.alias "A") :=
    (published_run alone).aliased a hrecord key hkey rfl
  exact ⟨succeeded, kept, (twice succeeded (.inr lenient)).2.1,
    (order swapped rfl same succeeded).2, (agree.aliased a hrecord key hkey).trans new⟩

end Configuration

end SignatureCatalog
