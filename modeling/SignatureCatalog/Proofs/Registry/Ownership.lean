import SignatureCatalog.Proofs.Registry.Lookup
import SignatureCatalog.Registry.Routing

/-!
# Who owns a key

The owner of a key is one of the records, and its adapter has just said that it supports the key
(`mem_of_owner`). Adapters act on a world, though, and what they say may depend on it, so that the
owner of a key is a matter of the world it is asked in. Where every adapter is *consistent*, which
is to give the same answers in all worlds, so is the routing: the owner of a key is the same
whenever it is asked for (`steady_owner`).

`Act.Steady` is this property of any act. It is closed under the ways acts are put together, as long
as what comes next is steady whatever came before.
-/

namespace SignatureCatalog

variable {ω β : Type}

/-! ### Steady acts -/

namespace Act

variable {μ ν ε α γ : Type}

/-- The act yields the same in every world. It may leave different worlds and different marks. -/
def Steady (act : Act μ ω α) : Prop :=
  ∀ w w', (act.run w).value = (act.run w').value

/-- What a steady act yields in one world it yields in any. -/
theorem Steady.run_eq {act : Act μ ω α} (h : act.Steady) {w : ω} {a : α}
    (hvalue : (act.run w).value = a) (w' : ω) :
    act.run w' = ⟨a, (act.run w').world, (act.run w').marks⟩ := by
  rw [← hvalue, h w w']

theorem steady_pure (a : α) : (pure a : Act μ ω α).Steady := fun _ _ => rfl

theorem Steady.bind {act : Act μ ω α} {next : α → Act μ ω γ} (h : act.Steady)
    (hnext : ∀ a, (next a).Steady) : (act >>= next).Steady := by
  intro w w'
  rw [run_bind, run_bind]
  dsimp only
  rw [h w w']
  exact hnext _ _ _

end Act

namespace Adapter

variable {α : Type} (a : Adapter ω β) (request : AdapterRequest)

theorem steady_ask {act : Act Event ω α} (h : act.Steady) : (a.ask request act).Steady := by
  intro w w'
  rw [run_ask, run_ask]
  exact h w w'

theorem steady_attempt {act : Act Event ω (Except Failure α)} (h : act.Steady) :
    (a.attempt request act).Steady := by
  intro w w'
  rw [run_attempt, run_attempt]
  dsimp only
  rw [h w w']

/-- **An adapter that does not change its mind**: whatever it is asked, it gives the same answer in
every world. -/
structure IsConsistent (a : Adapter ω β) : Prop where
  sign : ∀ message privateKey, (a.sign message privateKey).Steady
  verify : ∀ message publicKey signature, (a.verify message publicKey signature).Steady
  supports : ∀ k, (a.supports k).Steady
  publicKeyEncoding : a.publicKeyEncoding.Steady
  readPrivateKey : ∀ info, (a.readPrivateKey info).Steady
  readPublicKey : ∀ info parameters, (a.readPublicKey info parameters).Steady
  writePrivateKey : ∀ k attributes, (a.writePrivateKey k attributes).Steady
  writePublicKey : ∀ k, (a.writePublicKey k).Steady

end Adapter

namespace Registry

variable {r : Registry ω β} {k : Key β} {record : Record ω β} {w : ω}

/-! ### The owner is a record -/

/-- What is found by an object identifier is a record, also where the index is not exact. -/
theorem mem_of_lookupOid {oid : Oid} (h : r.lookupOid oid = .ok record) : record ∈ r.records := by
  unfold lookupOid at h
  split at h
  · next found hfound =>
    -- whatever place the index gives, it is looked up among the records
    obtain ⟨place, -, hplace⟩ := Option.bind_eq_some_iff.mp hfound
    rw [Except.ok.injEq] at h
    subst h
    exact List.mem_of_getElem? hplace
  · cases h

/-- The record that is found is one of those that were asked, and its adapter said yes. -/
theorem mem_of_firstSupporting {records : List (Record ω β)}
    (h : ((firstSupporting k records).run w).value = some record) :
    record ∈ records ∧ ∃ w', ((record.adapter.askSupports k).run w').value = true := by
  -- the world in which it said so is the one that those before it have left
  induction records generalizing w with
  | nil => cases h
  | cons first rest ih =>
    rw [firstSupporting, Act.run_bind] at h
    dsimp only at h
    cases hasked : ((first.adapter.askSupports k).run w).value with
    | true =>
      rw [hasked] at h
      obtain rfl : first = record := Option.some.inj h
      exact ⟨List.mem_cons_self, w, hasked⟩
    | false =>
      rw [hasked] at h
      obtain ⟨hmem, hsupports⟩ := ih h
      exact ⟨List.mem_cons_of_mem _ hmem, hsupports⟩

/-- **The owner of a key is a record whose adapter supports it.** -/
theorem mem_of_owner (h : ((r.owner k).run w).value = .ok record) :
    record ∈ r.records ∧ ∃ w', ((record.adapter.askSupports k).run w').value = true := by
  unfold owner at h
  -- one record to ask, or all of them: either way the owner was asked and said yes
  cases halgorithm : k.algorithm? with
  | some oid =>
    rw [halgorithm] at h
    dsimp only at h
    cases hlookup : r.lookupOid oid with
    | error e => rw [hlookup] at h; cases h
    | ok found =>
      rw [hlookup] at h
      dsimp only at h
      rw [Act.run_bind] at h
      dsimp only at h
      cases hasked : ((found.adapter.askSupports k).run w).value with
      | false => rw [hasked] at h; cases h
      | true =>
        rw [hasked] at h
        obtain rfl : found = record := Except.ok.inj h
        exact ⟨mem_of_lookupOid hlookup, w, hasked⟩
  | none =>
    rw [halgorithm] at h
    dsimp only at h
    rw [Act.run_bind] at h
    dsimp only at h
    cases hfirst : ((firstSupporting k r.records).run w).value with
    | none => rw [hfirst] at h; cases h
    | some found =>
      rw [hfirst] at h
      obtain rfl : found = record := Except.ok.inj h
      exact mem_of_firstSupporting hfirst

/-! ### What is done for the owner -/

/-- Something that is done for the owner of a key comes to what is done for the record, in the world
that the routing leaves. -/
theorem exists_owner_of_andThen {α : Type} {next : Record ω β → Act Mark ω (Except Error α)} {a : α}
    (h : (((r.owner k).andThen next).run w).value = .ok a) :
    ∃ record, ((r.owner k).run w).value = .ok record ∧
      ((next record).run ((r.owner k).run w).world).value = .ok a := by
  cases howner : ((r.owner k).run w).value with
  | error e =>
    rw [Act.run_andThen_of_error howner] at h
    cases h
  | ok record =>
    rw [Act.run_andThen_of_ok howner] at h
    exact ⟨record, rfl, h⟩

/-- The engine for a key is that of the key's owner. -/
theorem exists_owner_of_signatureEngine {engine : SignatureEngine ω β}
    (h : ((r.signatureEngine k).run w).value = .ok engine) :
    ∃ record, ((r.owner k).run w).value = .ok record ∧
      engine = .new record.name record.adapter := by
  obtain ⟨record, howner, hnew⟩ := exists_owner_of_andThen h
  exact ⟨record, howner, (Except.ok.inj hnew).symm⟩

/-! ### Consistent adapters -/

theorem steady_firstSupporting {records : List (Record ω β)}
    (consistent : ∀ record ∈ records, record.adapter.IsConsistent) :
    (firstSupporting k records).Steady := by
  induction records with
  | nil => exact Act.steady_pure _
  | cons first rest ih =>
    obtain ⟨hfirst, hrest⟩ := List.forall_mem_cons.mp consistent
    -- the answer decides whether the rest are asked, and it is the same in every world
    refine (first.adapter.steady_ask _ (hfirst.supports k)).bind fun supported => ?_
    cases supported with
    | true => exact Act.steady_pure _
    | false => exact ih hrest

/-- **Consistent adapters make the routing consistent.** -/
theorem steady_owner (consistent : ∀ record ∈ r.records, record.adapter.IsConsistent) (k : Key β) :
    (r.owner k).Steady := by
  unfold owner
  cases k.algorithm? with
  | some oid =>
    dsimp only
    cases hlookup : r.lookupOid oid with
    | error e => exact Act.steady_pure _
    | ok record =>
      have hrecord := consistent record (mem_of_lookupOid hlookup)
      -- the lookup does not look at the world, so only the one answer matters
      refine (record.adapter.steady_ask _ (hrecord.supports k)).bind fun supported => ?_
      cases supported <;> exact Act.steady_pure _
  | none =>
    dsimp only
    refine (steady_firstSupporting consistent).bind fun found => ?_
    cases found <;> exact Act.steady_pure _

end Registry

end SignatureCatalog
