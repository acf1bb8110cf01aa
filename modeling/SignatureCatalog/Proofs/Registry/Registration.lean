import SignatureCatalog.Proofs.Registry.Identifiers
import SignatureCatalog.Sample.HashScheme

/-!
# A registration is all or nothing

A registration is refused for an identifier that is taken, and it is the indexes that are asked
whether one is. What they say of a reachable registry is what its records say
(`Reachable.conflict?_eq_some_iff`), so a registration is refused exactly if a record shares one of
the three identifiers. `KeptOutBy` tells which of them is reported: the name goes before the object
identifier, and this before the scheme, although each may be taken by another record.

A refused registration leaves no trace but the question that the adapter is asked before anything
else. An accepted one puts its record behind all others (`Appends`): the new record is found by
whatever it bears, and every question about another identifier is answered as before.
`register_all_or_nothing` has both.
-/

namespace SignatureCatalog.Registry

variable {ω β : Type} {r r' : Registry ω β} {identity : Identity} {adapter : Adapter ω β} {w : ω}

/-! ### What keeps an algorithm out -/

/-- The identifier for which an algorithm is refused: the first of its three that is registered. -/
inductive KeptOutBy (r : Registry ω β) (identity : Identity) : Identifier → Prop where
  | name (taken : r.IsRegistered (.name identity.name)) : KeptOutBy r identity (.name identity.name)
  | oid (nameFree : ¬r.IsRegistered (.name identity.name))
      (taken : r.IsRegistered (.oid identity.oid)) : KeptOutBy r identity (.oid identity.oid)
  | scheme (nameFree : ¬r.IsRegistered (.name identity.name))
      (oidFree : ¬r.IsRegistered (.oid identity.oid))
      (taken : r.IsRegistered (.scheme identity.scheme)) :
      KeptOutBy r identity (.scheme identity.scheme)

/-- Something keeps an algorithm out exactly if a record shares one of its identifiers. -/
theorem exists_keptOutBy_iff :
    (∃ identifier, r.KeptOutBy identity identifier) ↔
      ∃ a ∈ r.records,
        a.name = identity.name ∨ a.oid = identity.oid ∨ a.scheme = identity.scheme := by
  constructor
  · rintro ⟨_, ⟨a, ha, hname⟩ | ⟨-, a, ha, hoid⟩ | ⟨-, -, a, ha, hscheme⟩⟩
    · exact ⟨a, ha, .inl hname⟩
    · exact ⟨a, ha, .inr (.inl hoid)⟩
    · exact ⟨a, ha, .inr (.inr hscheme)⟩
  · rintro ⟨a, ha, shared⟩
    -- in the order in which the three are reported, since the first that is taken keeps it out
    by_cases name : r.IsRegistered (.name identity.name)
    · exact ⟨_, .name name⟩
    by_cases oid : r.IsRegistered (.oid identity.oid)
    · exact ⟨_, .oid name oid⟩
    -- with the other two free, it is the scheme that is shared
    obtain hname | hoid | hscheme := shared
    · exact absurd ⟨a, ha, hname⟩ name
    · exact absurd ⟨a, ha, hoid⟩ oid
    · exact ⟨_, .scheme name oid ⟨a, ha, hscheme⟩⟩

/-- An index knows the identifiers that records have. -/
theorem contains_indexBy_eq_true_iff {κ : Type} [DecidableEq κ] [Ord κ]
    {identifier : Record ω β → κ} {records : List (Record ω β)} {x : κ} :
    (indexBy identifier records).contains x = true ↔
      ∃ record ∈ records, identifier record = x := by
  rw [← Bool.not_eq_false, contains_indexBy_eq_false_iff]
  simp only [ne_eq, not_forall, not_not, exists_prop]

/-- **The indexes speak for the records**: what they refuse is what some record bears. -/
theorem Reachable.conflict?_eq_some_iff (h : r.Reachable) {identifier : Identifier} :
    r.conflict? identity = some identifier ↔ r.KeptOutBy identity identifier := by
  -- each index speaks for the records, so asking them in turn is asking who bears what in turn
  have name : r.byName.contains identity.name = true ↔ r.IsRegistered (.name identity.name) := by
    rw [h.eq_ofRecords]
    exact contains_indexBy_eq_true_iff
  have oid : r.byOid.contains identity.oid = true ↔ r.IsRegistered (.oid identity.oid) := by
    rw [h.eq_ofRecords]
    exact contains_indexBy_eq_true_iff
  have scheme : r.byScheme.contains identity.scheme = true ↔
      r.IsRegistered (.scheme identity.scheme) := by
    rw [h.eq_ofRecords]
    exact contains_indexBy_eq_true_iff
  unfold conflict?
  constructor
  · intro found
    split at found
    case isTrue taken => cases found; exact .name (name.mp taken)
    case isFalse nameFree =>
      split at found
      case isTrue taken => cases found; exact .oid (mt name.mpr nameFree) (oid.mp taken)
      case isFalse oidFree =>
        split at found
        case isTrue taken =>
          cases found
          exact .scheme (mt name.mpr nameFree) (mt oid.mpr oidFree) (scheme.mp taken)
        case isFalse => cases found
  · intro keptOut
    cases keptOut with
    | name taken => rw [if_pos (name.mpr taken)]
    | oid nameFree taken => rw [if_neg (mt name.mp nameFree), if_pos (oid.mpr taken)]
    | scheme nameFree oidFree taken =>
      rw [if_neg (mt name.mp nameFree), if_neg (mt oid.mp oidFree), if_pos (scheme.mpr taken)]

/-! ### What a registration does -/

/-- All that is marked before a registration is decided: the adapter is asked how its payloads are
to be read, and may log something of its own. -/
def encodingAsked (adapter : Adapter ω β) (w : ω) : List Mark :=
  .adapter adapter.label .publicKeyEncoding ::
    (adapter.publicKeyEncoding.run w).marks.map .event

theorem run_register_of_conflict {identifier : Identifier}
    (conflict : r.conflict? identity = some identifier) :
    (r.register identity adapter).run w =
      ⟨.error (.duplicateRegistration (.identifier identifier)),
        (adapter.publicKeyEncoding.run w).world, encodingAsked adapter w⟩ := by
  simp only [register, Act.run_bind, Record.run_make, conflict, Act.run_pure, List.append_nil,
    encodingAsked]

theorem run_register_of_admitted (admitted : r.conflict? identity = none) :
    (r.register identity adapter).run w =
      ⟨.ok (ofRecords (r.records ++ [Record.asked identity adapter w])),
        (adapter.publicKeyEncoding.run w).world,
        encodingAsked adapter w ++ [.event (.registering identity)]⟩ := by
  simp only [register, Act.run_bind, Record.run_make, admitted, log, Act.run_mark, Act.run_pure,
    List.append_nil, encodingAsked, Record.asked]

/-- **The record comes last**, and whoever asks for anything else is answered as before. -/
structure Appends (r : Registry ω β) (record : Record ω β) (r' : Registry ω β) : Prop where
  records : r'.records = r.records ++ [record]
  /-- Every earlier record is at its place. -/
  places : ∀ (place : Nat) (a : Record ω β),
    r.records[place]? = some a → r'.records[place]? = some a
  /-- The new record is found by each of its identifiers, in the lookups and for the handshake. -/
  found : ∀ identifier, record.Bears identifier → r'.LeadsTo identifier record
  /-- Whatever was found is found. -/
  kept : ∀ identifier a, r.LeadsTo identifier a → r'.LeadsTo identifier a
  /-- Whatever was unknown is unknown, unless it is what the new record bears. -/
  unknown : ∀ identifier, r.IsUnknown identifier → ¬record.Bears identifier →
    r'.IsUnknown identifier
  offered : r'.dispatch.supportedSchemes = r.dispatch.supportedSchemes ++ [record.scheme]
  pairs : r'.signatureAndHashPairs = r.signatureAndHashPairs ++ [record.scheme.pair]

/-- One more record at the end is all that two registries need to differ by. -/
theorem Reachable.appends (h : r.Reachable) (h' : r'.Reachable) {record : Record ω β}
    (records : r'.records = r.records ++ [record]) : r.Appends record r' := by
  have mem_iff (a : Record ω β) : a ∈ r'.records ↔ a ∈ r.records ∨ a = record := by
    rw [records, List.mem_append, List.mem_singleton]
  constructor
  case records => exact records
  case places =>
    intro place a ha
    have hlt : place < r.records.length := (List.getElem?_eq_some_iff.mp ha).1
    rw [records, List.getElem?_append_left hlt, ha]
  case found =>
    intro identifier bears
    exact h'.leadsTo ((mem_iff record).mpr (.inr rfl)) bears
  case kept =>
    intro identifier a leadsTo
    -- whoever was found is a record with the identifier, and is one still
    obtain ⟨ha, bears⟩ := h.lookup_eq_ok_iff.mp leadsTo.lookup
    exact h'.leadsTo ((mem_iff a).mpr (.inl ha)) bears
  case unknown =>
    intro identifier unknown unborne
    have missing := (h.lookup_eq_error_iff.mp unknown.lookup).2
    -- a bearer would be an old record, and there was none, or the new one
    refine h'.isUnknown ?_
    rintro ⟨a, ha, bears⟩
    obtain ha | rfl := (mem_iff a).mp ha
    · exact missing ⟨a, ha, bears⟩
    · exact unborne bears
  case offered => rw [h'.supportedSchemes_eq, h.supportedSchemes_eq, records, List.map_append]; rfl
  case pairs => rw [signatureAndHashPairs, signatureAndHashPairs, records, List.map_append]; rfl

/-! ### All or nothing -/

/-- A registration is refused for what keeps the algorithm out, or else adds its record at the
end. -/
theorem Reachable.run_register_cases (h : r.Reachable) (identity : Identity)
    (adapter : Adapter ω β) (w : ω) :
    (∃ identifier, r.KeptOutBy identity identifier ∧ (r.register identity adapter).run w =
      ⟨.error (.duplicateRegistration (.identifier identifier)),
        (adapter.publicKeyEncoding.run w).world, encodingAsked adapter w⟩) ∨
    ((∀ identifier, ¬r.KeptOutBy identity identifier) ∧ ∃ r',
      r.Appends (.asked identity adapter w) r' ∧ (r.register identity adapter).run w =
        ⟨.ok r', (adapter.publicKeyEncoding.run w).world,
          encodingAsked adapter w ++ [.event (.registering identity)]⟩) := by
  cases conflict : r.conflict? identity with
  | some identifier =>
    exact .inl ⟨identifier, h.conflict?_eq_some_iff.mp conflict, run_register_of_conflict conflict⟩
  | none =>
    have hcall : (r.register identity adapter).run w = _ := run_register_of_admitted conflict
    have h' := h.register identity adapter w (congrArg Outcome.value hcall)
    -- nothing kept it out, or the indexes would have said so
    refine .inr ⟨fun identifier keptOut => ?_, _, h.appends h' rfl, hcall⟩
    rw [h.conflict?_eq_some_iff.mpr keptOut] at conflict
    cases conflict

/-- **A registration is all or nothing**, after any history. It is refused exactly if a record
shares one of the three identifiers. Then the first of them that is taken is reported, nothing is
logged, and the registry is what it is without the call; otherwise the record has been added at the
end and that is logged. -/
theorem register_all_or_nothing (history : List (Change ω β × ω)) (identity : Identity)
    (adapter : Adapter ω β) (w : ω) :
    let r := ofHistory history
    let call := (r.register identity adapter).run w
    let after := ofHistory (history ++ [(.register identity adapter, w)])
    ((∃ e, call.value = .error e) ↔ ∃ a ∈ r.records,
      a.name = identity.name ∨ a.oid = identity.oid ∨ a.scheme = identity.scheme) ∧
    (∀ e, call.value = .error e →
      (∃ identifier, r.KeptOutBy identity identifier ∧
        e = .duplicateRegistration (.identifier identifier)) ∧
      after = r ∧ call.marks = encodingAsked adapter w) ∧
    ∀ r', call.value = .ok r' →
      after = r' ∧ r.Appends (.asked identity adapter w) r' ∧
        call.marks = encodingAsked adapter w ++ [.event (.registering identity)] := by
  intro r call after
  have h : r.Reachable := reachable_ofHistory history
  have hafter : after = r.after (.register identity adapter, w) :=
    ofHistory_append_singleton history _
  -- the history with the call at its end leads to what the call makes of the registry
  rw [← exists_keptOutBy_iff, hafter, Registry.after]
  rcases h.run_register_cases identity adapter w with
    ⟨identifier, keptOut, hcall⟩ | ⟨free, r', appends, hcall⟩
  · simp only [call, hcall, and_true]
    refine ⟨iff_of_true ⟨_, rfl⟩ ⟨identifier, keptOut⟩, ?_, ?_⟩
    · intro e herror
      obtain rfl := Except.error.inj herror
      exact ⟨identifier, keptOut, rfl⟩
    · intro r' hok
      cases hok
  · have notKeptOut : ¬∃ identifier, r.KeptOutBy identity identifier := not_exists.mpr free
    simp only [call, hcall, and_true]
    refine ⟨iff_of_false ?_ notKeptOut, ?_, ?_⟩
    · rintro ⟨e, herror⟩
      cases herror
    · intro e herror
      cases herror
    · intro r'' hok
      obtain rfl := Except.ok.inj hok
      exact ⟨rfl, appends⟩

/-- Each of the three identifiers is taken by another record: the name is reported, and under a new
name the object identifier. -/
theorem register_all_or_nothing_three_bearers :
    let adapter : Adapter Unit Sample.KeyBody :=
      Sample.HashScheme.adapter id ⟨⟨[0x2a, 0x03, 0x04]⟩, .flat⟩ "xyz"
    let identity (name : String) (arc : UInt8) (scheme : UInt16) : Identity :=
      ⟨name, ⟨[0x2a, 0x03, arc]⟩, ⟨scheme⟩⟩
    let algorithms := [(identity "A" 1 1, adapter), (identity "B" 2 2, adapter),
      (identity "C" 3 3, adapter)]
    let history := algorithms.map fun a => (Change.register a.1 a.2, ())
    let r := ofHistory history
    let answer (identity : Identity) := ((r.register identity adapter).run ()).value
    answer (identity "C" 2 1) = .error (.duplicateRegistration (.identifier (.name "C"))) ∧
      answer (identity "D" 2 1) =
        .error (.duplicateRegistration (.identifier (.oid ⟨[0x2a, 0x03, 2]⟩))) ∧
      ofHistory (history ++ [(.register (identity "C" 2 1) adapter, ())]) = r ∧
      ∃ r', answer (identity "D" 4 4) = .ok r' ∧
        r'.LeadsTo (.scheme ⟨4⟩) (.asked (identity "D" 4 4) adapter ()) ∧
        r'.records[1]? = some (.asked (identity "B" 2 2) adapter ()) := by
  intro adapter identity algorithms history r answer
  have records : r.records = algorithms.map fun a => .asked a.1 a.2 () :=
    records_ofHistory_of_distinct () (by decide)
  -- the three were registered, each with its own identifiers
  have registered (b : Identity) (hb : (b, adapter) ∈ algorithms) {identifier : Identifier}
      (bears : (Record.asked b adapter ()).Bears identifier) : r.IsRegistered identifier :=
    ⟨.asked b adapter (), by rw [records]; exact List.mem_map_of_mem hb, bears⟩
  have refused {identity : Identity} {identifier : Identifier}
      (keptOut : r.KeptOutBy identity identifier) :
      answer identity = .error (.duplicateRegistration (.identifier identifier)) := by
    have conflict := (reachable_ofHistory history).conflict?_eq_some_iff.mpr keptOut
    exact congrArg Outcome.value (run_register_of_conflict conflict)
  have nameFree : ¬r.IsRegistered (.name "D") := by
    rintro ⟨record, hrecord, bears⟩
    rw [records] at hrecord
    obtain ⟨a, ha, rfl⟩ := List.mem_map.mp hrecord
    have unborne : ∀ a ∈ algorithms, a.1.name ≠ "D" := by decide
    exact unborne a ha bears
  have nameTaken : answer (identity "C" 2 1) = _ :=
    refused (.name (registered (identity "C" 3 3) (by simp [algorithms]) rfl))
  have oidTaken : answer (identity "D" 2 1) = _ :=
    refused (.oid nameFree (registered (identity "B" 2 2) (by simp [algorithms]) rfl))
  have unchanged :=
    ((register_all_or_nothing history (identity "C" 2 1) adapter ()).2.1 _ nameTaken).2.1
  refine ⟨nameTaken, oidTaken, unchanged, ?_⟩
  obtain ⟨refused_iff, -, accepted⟩ := register_all_or_nothing history (identity "D" 4 4) adapter ()
  cases hvalue : answer (identity "D" 4 4) with
  | ok r' =>
    obtain ⟨-, appends, -⟩ := accepted r' hvalue
    refine ⟨r', rfl, appends.found (.scheme ⟨4⟩) rfl, appends.places 1 _ ?_⟩
    show r.records[1]? = _
    rw [records]
    rfl
  | error e =>
    -- no record shares an identifier
    obtain ⟨record, hrecord, shared⟩ := refused_iff.mp ⟨e, hvalue⟩
    have hrecord : record ∈ r.records := hrecord
    rw [records] at hrecord
    obtain ⟨a, ha, rfl⟩ := List.mem_map.mp hrecord
    have free : ∀ a ∈ algorithms,
        ¬(a.1.name = "D" ∨ a.1.oid = ⟨[0x2a, 0x03, 4]⟩ ∨ a.1.scheme = ⟨4⟩) := by decide
    exact absurd shared (free a ha)

end SignatureCatalog.Registry
