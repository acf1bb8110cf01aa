import Mathlib.Data.List.Induction
import SignatureCatalog.Proofs.Provider.Configure
import SignatureCatalog.Sample.HashScheme

/-!
# Publishing again and again

A table that lets go of everything can be configured as often as one likes, from one registry or
from many. Each record that is published takes the place of whatever was under its own keys, so what
the table holds is told by the records published so far: under a name there is the engine of the
last record with that name, and under an object identifier the alias and the converter of the last
record with that identifier (`Holdings.Recalls`, kept by one publication and so by all of them).

These are two last records, not one. As long as a name and an object identifier belong together they
are the same, and the alias leads to the adapter that the converter is. But nothing takes back the
alias of an identifier that a name has left: published again under another identifier, the name
leads to the new engine, and the old alias leads there with it. `engine_of_alias` says that this is
the only way for the two to part, and `stale_alias` is the shortest history in which they do.
-/

namespace SignatureCatalog

variable {ω β α : Type}

/-! ### The last one with a property -/

/-- `a` is the last one of `l` with the property, and `since` is what comes after it. -/
structure IsLast (q : α → Prop) (l : List α) (a : α) (since : List α) : Prop where
  split : ∃ before, l = before ++ a :: since
  holds : q a
  none_since : ∀ b ∈ since, ¬q b

section

variable {q : α → Prop} [DecidablePred q] {a : α} {l l' : List α}

theorem findRev?_append :
    (l ++ l').findRev? (q ·) = (l'.findRev? (q ·)).or (l.findRev? (q ·)) := by
  rw [List.findRev?_eq_find?_reverse, List.findRev?_eq_find?_reverse,
    List.findRev?_eq_find?_reverse, List.reverse_append, List.find?_append]

theorem findRev?_append_singleton :
    (l ++ [a]).findRev? (q ·) = if q a then some a else l.findRev? (q ·) := by
  rw [findRev?_append, List.findRev?_eq_find?_reverse, List.reverse_singleton,
    List.find?_singleton]
  by_cases ha : q a
  · rw [if_pos (decide_eq_true ha), if_pos ha, Option.some_or]
  · rw [if_neg (by rwa [decide_eq_true_iff]), if_neg ha, Option.none_or]

/-- What comes before one with the property does not matter. -/
theorem findRev?_append_cons (ha : q a) :
    (l ++ a :: l').findRev? (q ·) = (l'.findRev? (q ·)).or (some a) := by
  rw [List.append_cons, findRev?_append, findRev?_append_singleton, if_pos ha]

theorem findRev?_eq_none_iff : l.findRev? (q ·) = none ↔ ∀ b ∈ l, ¬q b := by
  rw [List.findRev?_eq_find?_reverse, List.find?_eq_none]
  simp only [List.mem_reverse, decide_eq_true_eq]

/-- A search from the end finds the last one with the property. -/
theorem findRev?_eq_some_iff : l.findRev? (q ·) = some a ↔ ∃ since, IsLast q l a since := by
  constructor
  · intro h
    rw [List.findRev?_eq_find?_reverse] at h
    -- what a search from the front passes over in the reversed list is what comes after
    obtain ⟨ha, since, before, hl, hsince⟩ := List.find?_eq_some_iff_append.mp h
    refine ⟨since.reverse, ⟨before.reverse, ?_⟩, of_decide_eq_true ha, ?_⟩
    · calc l = l.reverse.reverse := (List.reverse_reverse l).symm
        _ = (since ++ a :: before).reverse := by rw [hl]
        _ = before.reverse ++ a :: since.reverse := by
          rw [List.reverse_append, List.reverse_cons, List.append_assoc, List.singleton_append]
    · intro b hb
      have hb := hsince b (List.mem_reverse.mp hb)
      rwa [Bool.not_eq_true', decide_eq_false_iff_not] at hb
  · intro h
    obtain ⟨since, ⟨before, rfl⟩, ha, hsince⟩ := h
    rw [findRev?_append_cons ha, findRev?_eq_none_iff.mpr hsince, Option.none_or]

end

/-! ### What is held -/

namespace Holdings

variable {h : Holdings ω β} {records : List (Record ω β)}

/-- **What is held is what the records that were published leave**: under each name the engine of
the last one with it, and under each object identifier the aliases and the converter of the last one
with that. -/
structure Recalls (h : Holdings ω β) (records : List (Record ω β)) : Prop where
  engine : ∀ name, h.held? (.service .signature name) =
    (records.findRev? (·.name = name)).map fun record => .engine (.ofRecord record)
  aliased : ∀ s oid form, h.held? (.alias s oid form) =
    (records.findRev? (·.oid = oid)).map fun record => .alias record.name
  converter : ∀ oid, h.converter? oid = (records.findRev? (·.oid = oid)).map (·.adapter)

/-- Everything may be removed. -/
def LetsGo (h : Holdings ω β) : Prop :=
  ∀ key, h.removable key = true

theorem LetsGo.publishAll (letsGo : h.LetsGo) (records : List (Record ω β)) :
    (h.publishAll records).LetsGo := by
  intro key
  -- publishing does not touch what may be removed
  rw [removable_publishAll]
  exact letsGo key

/-- One more record that is published is the last one under its name and its identifier. -/
theorem Recalls.publish (recalls : h.Recalls records) (letsGo : h.LetsGo)
    (record : Record ω β) : (h.publish record).Recalls (records ++ [record]) := by
  refine ⟨fun name => ?_, fun s oid form => ?_, fun oid => ?_⟩
  · rw [held?_publish, findRev?_append_singleton]
    simp only [Record.eq_engineKey_iff]
    by_cases hname : record.name = name
    · rw [if_pos hname, if_pos hname, Option.map_some]
    · -- under another name nothing changes, since an engine's key is no alias either
      rw [if_neg hname, if_neg hname, if_neg fun hkey => Record.service_notMem_aliasKeys hkey.1,
        recalls.engine]
  · rw [held?_publish, findRev?_append_singleton, if_neg fun hkey => ProviderKey.noConfusion hkey]
    simp only [Record.alias_mem_aliasKeys_iff]
    by_cases hoid : record.oid = oid
    · -- the alias that was there is not kept
      rw [if_pos ⟨hoid, keeps_eq_false_of_removable (letsGo _)⟩, if_pos hoid, Option.map_some]
    · rw [if_neg fun hkey => hoid hkey.1, if_neg hoid, recalls.aliased]
  · rw [converter?_publish, findRev?_append_singleton]
    simp only [@eq_comm _ oid]
    by_cases hoid : record.oid = oid
    · rw [if_pos hoid, if_pos hoid, Option.map_some]
    · rw [if_neg hoid, if_neg hoid, recalls.converter]

theorem recalls_publishAll (start : h.Recalls []) (letsGo : h.LetsGo)
    (records : List (Record ω β)) : (h.publishAll records).Recalls records := by
  -- by induction from the end, since the last record is the one that shows
  induction records using List.reverseRecOn with
  | nil => exact start
  | append_singleton records record ih =>
    have hlast : h.publishAll (records ++ [record]) = (h.publishAll records).publish record :=
      List.foldl_append
    rw [hlast]
    exact ih.publish (letsGo.publishAll records) record

end Holdings

/-! ### Tables -/

/-- A call that configures a table: how lenient it is, and from which registry. -/
structure Configuration (ω β : Type) where
  leniency : Leniency
  registry : Registry ω β
  reachable : registry.Reachable

/-- A call with the registry that a history leads to. -/
def Configuration.ofHistory (leniency : Leniency) (history : List (Registry.Change ω β × ω)) :
    Configuration ω β :=
  ⟨leniency, .ofHistory history, Registry.reachable_ofHistory history⟩

/-- The records that calls publish, in order. -/
def Configuration.published (calls : List (Configuration ω β)) : List (Record ω β) :=
  calls.flatMap fun call => call.registry.records

namespace ProviderTable

/-- The table after one call. -/
def configured (t : ProviderTable ω β) (call : Configuration ω β) : ProviderTable ω β :=
  ((provider.configure call.leniency call.registry).run t).world

/-- The table after one call after another. -/
def configuredAll (t : ProviderTable ω β) (calls : List (Configuration ω β)) :
    ProviderTable ω β :=
  calls.foldl configured t

/-- Where everything may be replaced a call succeeds, however strict it is, and publishes all
records. -/
theorem holdings_configured {t : ProviderTable ω β} (letsGo : t.holdings.LetsGo)
    (call : Configuration ω β) :
    ((provider.configure call.leniency call.registry).run t).value = .ok () ∧
      (t.configured call).holdings = t.holdings.publishAll call.registry.records := by
  obtain ⟨hvalue, hworld, -⟩ := honest.publishAll_of_clear call.reachable.distinct
    (fun record _ => letsGo record.engineKey)
    (fun _ _ _ key _ => Holdings.keeps_eq_false_of_removable (letsGo key)) t rfl
  exact ⟨hvalue, hworld⟩

theorem holdings_configuredAll {t : ProviderTable ω β} (letsGo : t.holdings.LetsGo)
    (calls : List (Configuration ω β)) :
    (t.configuredAll calls).holdings = t.holdings.publishAll (Configuration.published calls) := by
  induction calls generalizing t with
  | nil => rfl
  | cons call calls ih =>
    obtain ⟨-, hfirst⟩ := holdings_configured letsGo call
    -- what was published first does not keep the later calls from publishing
    have hnext : (t.configured call).holdings.LetsGo := by
      rw [hfirst]
      exact letsGo.publishAll call.registry.records
    calc (t.configuredAll (call :: calls)).holdings
        = ((t.configured call).configuredAll calls).holdings := rfl
      _ = (t.configured call).holdings.publishAll (Configuration.published calls) := ih hnext
      _ = (t.holdings.publishAll call.registry.records).publishAll
            (Configuration.published calls) := by rw [hfirst]
      _ = t.holdings.publishAll (Configuration.published (call :: calls)) :=
        List.foldl_append.symm

/-- A table that started empty holds what the records published so far leave. -/
theorem recalls_configuredAll (calls : List (Configuration ω β)) :
    ((empty false : ProviderTable ω β).configuredAll calls).holdings.Recalls
      (Configuration.published calls) := by
  rw [holdings_configuredAll (fun _ => rfl) calls]
  exact Holdings.recalls_publishAll ⟨fun _ => rfl, fun _ _ _ => rfl, fun _ => rfl⟩ (fun _ => rfl) _

/-- **The engine behind an alias.** Whatever was published into a table that started empty, the
alias of an object identifier and the converter for it are those of the last record with the
identifier. The engine that the alias leads to has the same adapter, unless the name has been
published again since, which was then under another identifier; in that case it is the engine of the
last record with the name. -/
theorem engine_of_alias (calls : List (Configuration ω β)) {oid : Oid} {form : AliasForm}
    {name : String} {b : EngineBinding ω β} {c : Adapter ω β}
    (aliased : ((empty false).configuredAll calls).get? (.alias .signature oid form) =
      some (.alias name))
    (bound : ((empty false).configuredAll calls).get? (.service .signature name) =
      some (.engine b))
    (converted : ((empty false).configuredAll calls).converter? oid = some c) :
    ∃ record since,
      IsLast (·.oid = oid) (Configuration.published calls) record since ∧
        record.name = name ∧ record.adapter = c ∧
        ((∀ a ∈ since, a.name ≠ name) → b.adapter = c) ∧
        ∀ later after, IsLast (·.name = name) since later after →
          later.oid ≠ oid ∧ b = .ofRecord later := by
  have recalls := recalls_configuredAll calls
  have haliased := (recalls.aliased .signature oid form).symm.trans aliased
  have hbound := (recalls.engine name).symm.trans bound
  have hconverted := (recalls.converter oid).symm.trans converted
  obtain ⟨record, hrecord, hname⟩ := Option.map_eq_some_iff.mp haliased
  obtain rfl : record.name = name := ProviderEntry.alias.inj hname
  rw [hrecord, Option.map_some, Option.some.injEq] at hconverted
  obtain ⟨since, hlast⟩ := findRev?_eq_some_iff.mp hrecord
  obtain ⟨before, hpublished⟩ := hlast.split
  -- under the name there is what came last since then, or else `record` itself
  have hsearch : (before ++ record :: since).findRev? (·.name = record.name) =
      (since.findRev? (·.name = record.name)).or (some record) := findRev?_append_cons rfl
  rw [hpublished, hsearch] at hbound
  refine ⟨record, since, hlast, rfl, hconverted, ?_, ?_⟩
  · intro hsince
    rw [findRev?_eq_none_iff.mpr hsince, Option.none_or, Option.map_some,
      Option.some.injEq] at hbound
    -- the name has not been published since, so both lead back to `record`
    rw [← ProviderEntry.engine.inj hbound, ← hconverted]
    rfl
  · intro later after hlater
    obtain ⟨between, hsince⟩ := hlater.split
    rw [findRev?_eq_some_iff.mpr ⟨after, hlater⟩, Option.some_or, Option.map_some,
      Option.some.injEq] at hbound
    -- `later` came after the last record with the identifier, so it has another one
    refine ⟨hlast.none_since later ?_, (ProviderEntry.engine.inj hbound).symm⟩
    rw [hsince]
    exact List.mem_append_right _ List.mem_cons_self

/-- A name that moves to another object identifier: first the adapter `old` under 1.2.3.4, then, in
a registry of its own, the adapter `new` under 1.2.3.5. -/
def movedName : List (Configuration Unit Sample.KeyBody) :=
  let scheme (oid : Oid) := Sample.HashScheme.adapter (ω := Unit) id ⟨oid, .flat⟩
  [.ofHistory .strict
      [(.register ⟨"N", ⟨[0x2a, 0x03, 0x04]⟩, ⟨1⟩⟩ (scheme ⟨[0x2a, 0x03, 0x04]⟩ "old"), ())],
    .ofHistory .strict
      [(.register ⟨"N", ⟨[0x2a, 0x03, 0x05]⟩, ⟨2⟩⟩ (scheme ⟨[0x2a, 0x03, 0x05]⟩ "new"), ())]]

/-- Nothing follows the record of the identifier that the name has moved to, so there the alias
leads to the adapter that the converter is. -/
theorem engine_of_alias_moved_name :
    let t := (empty false).configuredAll movedName
    let oid : Oid := ⟨[0x2a, 0x03, 0x05]⟩
    ∃ b c, t.get? (.alias .signature oid .prefixed) = some (.alias "N") ∧
      t.get? (.service .signature "N") = some (.engine b) ∧ t.converter? oid = some c ∧
      b.adapter = c := by
  intro t oid
  have recalls := recalls_configuredAll movedName
  have aliased : t.get? (.alias .signature oid .prefixed) = some (.alias "N") :=
    recalls.aliased .signature oid .prefixed
  have bound := recalls.engine "N"
  have converted := recalls.converter oid
  obtain ⟨record, since, ⟨⟨before, hsplit⟩, hoid, -⟩, -, -, hsame, -⟩ :=
    engine_of_alias movedName aliased bound converted
  refine ⟨_, _, aliased, bound, converted, hsame ?_⟩
  have hpublished : Configuration.published movedName = [_, _] := rfl
  rw [hpublished] at hsplit
  -- of the two records that are published it is the second that has this identifier
  cases before with
  | nil =>
    obtain ⟨rfl, -⟩ := List.cons.inj hsplit
    exact absurd hoid (by decide)
  | cons first before =>
    have hlength := congrArg List.length hsplit
    rw [List.length_append] at hlength
    simp only [List.length_cons, List.length_nil] at hlength
    obtain rfl : since = [] := List.eq_nil_of_length_eq_zero (by omega)
    intro a ha
    cases ha

/-- **An alias goes stale when its name moves.** The alias of 1.2.3.4 leads to `N`, and `N` to the
adapter `new`, while key infos with 1.2.3.4 are still converted by `old`. -/
theorem stale_alias :
    let t := (empty false).configuredAll movedName
    let oid : Oid := ⟨[0x2a, 0x03, 0x04]⟩
    ∃ b c, t.get? (.alias .signature oid .dotted) = some (.alias "N") ∧
      t.get? (.service .signature "N") = some (.engine b) ∧ t.converter? oid = some c ∧
      b.adapter ≠ c := by
  intro t oid
  have recalls := recalls_configuredAll movedName
  -- the last record with this identifier is the first one, and the last with the name the second
  refine ⟨_, _, recalls.aliased .signature oid .dotted, recalls.engine "N", recalls.converter oid,
    fun h => ?_⟩
  -- adapters are functions, and it is their labels that tell them apart
  exact absurd (congrArg Adapter.label h) (by decide)

end ProviderTable

end SignatureCatalog
