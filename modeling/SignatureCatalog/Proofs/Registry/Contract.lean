import Mathlib.Data.List.Find
import SignatureCatalog.Proofs.Registry.SameRecords

/-!
# Adapters that keep their contract

A key that does not tell its algorithm is shown to the adapters one after another, and the first
that accepts it owns it. Who is first is an accident of the history. It does not matter if the
adapters keep what is asked of them: that being asked has no effect, and that none accepts a key of
another algorithm.

Which algorithm a key belongs to need not be known to anybody. `KeepsContract` is stated for some
assignment of keys to object identifiers, possibly a partial one; as no two records of a reachable
registry share an object identifier, at most one of them accepts a key
(`Reachable.eq_of_accepts`). What the search finds is then told by the set of the records, and not
by their order.

Two runs that ask other adapters on the way leave other marks. What is compared is what they yield
and the world they leave (`Act.Agrees`), for each of the operations that begin by looking for the
owner (`ServesAlike`).
-/

namespace SignatureCatalog

variable {ω β : Type}

/-! ### Acts that come to the same -/

namespace Act

variable {μ ε α γ : Type} {act act' : Act μ ω α}

/-- In every world the two acts yield the same and leave the same world. What they do on the way may
differ. -/
def Agrees (act act' : Act μ ω α) : Prop :=
  ∀ w, (act.run w).value = (act'.run w).value ∧ (act.run w).world = (act'.run w).world

theorem Agrees.refl (act : Act μ ω α) : act.Agrees act :=
  fun _ => ⟨rfl, rfl⟩

theorem Agrees.bind {next next' : α → Act μ ω γ} (h : act.Agrees act')
    (hnext : ∀ a, (next a).Agrees (next' a)) : (act >>= next).Agrees (act' >>= next') := by
  intro w
  obtain ⟨hvalue, hworld⟩ := h w
  rw [run_bind, run_bind]
  dsimp only
  rw [hvalue, hworld]
  exact hnext _ _

/-- What comes next has to agree only after the values that there are. -/
theorem Agrees.andThen {act act' : Act μ ω (Except ε α)} {next next' : α → Act μ ω (Except ε γ)}
    (h : act.Agrees act')
    (hnext : ∀ a w, (act.run w).value = .ok a → (next a).Agrees (next' a)) :
    (act.andThen next).Agrees (act'.andThen next') := by
  intro w
  obtain ⟨hvalue, hworld⟩ := h w
  cases hresult : (act.run w).value with
  | error e =>
    rw [run_andThen_of_error hresult, run_andThen_of_error (hvalue.symm.trans hresult)]
    exact ⟨rfl, hworld⟩
  | ok a =>
    rw [run_andThen_of_ok hresult, run_andThen_of_ok (hvalue.symm.trans hresult), ← hworld]
    exact hnext a w hresult _

end Act

/-! ### The contract -/

namespace Adapter

variable {α : Type} (a : Adapter ω β)

theorem agrees_attempt (request : AdapterRequest) {act act' : Act Event ω (Except Failure α)}
    (h : act.Agrees act') : (a.attempt request act).Agrees (a.attempt request act') := by
  intro w
  obtain ⟨hvalue, hworld⟩ := h w
  rw [run_attempt, run_attempt]
  dsimp only
  rw [hvalue, hworld]
  exact ⟨rfl, rfl⟩

/-- Whether the adapter accepts a key in this world. -/
def accepts (k : Key β) (w : ω) : Bool :=
  ((a.supports k).run w).value

/-- **What is asked of an adapter** for the algorithm `oid`, where `belongs` says which algorithm a
key belongs to. -/
structure KeepsContract (oid : Oid) (belongs : Key β → Option Oid) : Prop where
  /-- Being asked about a key has no effect on the world. -/
  pure : ∀ k w, ((a.supports k).run w).world = w
  /-- No key of another algorithm is accepted. -/
  own : ∀ k w, a.accepts k w = true → belongs k = some oid

/-- Whether a key tells its algorithm makes no difference to the adapter, neither to whether it
accepts the key nor to how it writes it. -/
structure IgnoresTag : Prop where
  supports : ∀ k oid, (a.supports (k.tagged oid)).Agrees (a.supports k)
  writePrivateKey : ∀ k oid attributes,
    (a.writePrivateKey (k.tagged oid) attributes).Agrees (a.writePrivateKey k attributes)
  writePublicKey : ∀ k oid, (a.writePublicKey (k.tagged oid)).Agrees (a.writePublicKey k)

end Adapter

/-! ### The search for the owner -/

/-- Where one member at most has a property, the search for it does not depend on the order. -/
theorem find?_eq_of_unique {α : Type} {p : α → Bool} {l l' : List α}
    (unique : ∀ a ∈ l, ∀ b ∈ l, p a = true → p b = true → a = b)
    (same : ∀ a, a ∈ l ↔ a ∈ l') : l.find? p = l'.find? p := by
  cases found : l.find? p with
  | none =>
    have hnone := List.find?_eq_none.mp found
    symm
    apply List.find?_eq_none.mpr
    intro a ha
    exact hnone a ((same a).mpr ha)
  | some a =>
    have ha : a ∈ l := List.mem_of_find?_eq_some found
    have hp : p a = true := List.find?_some found
    -- `l'` has `a` too, so the search there finds something, which cannot be anything else
    obtain ⟨b, found'⟩ := Option.isSome_iff_exists.mp
      (List.find?_isSome.mpr ⟨a, (same a).mp ha, hp⟩)
    have hb : b ∈ l := (same b).mpr (List.mem_of_find?_eq_some found')
    rw [found', unique a ha b hb hp (List.find?_some found')]

namespace Registry

variable {r r' : Registry ω β} {k k' : Key β} {belongs : Key β → Option Oid}

/-- Where being asked has no effect, all adapters are asked in one world, and what they accept there
decides. -/
theorem run_firstSupporting_of_pure {records : List (Record ω β)}
    (pure : ∀ record ∈ records, ∀ w, ((record.adapter.supports k).run w).world = w) (w : ω) :
    ((firstSupporting k records).run w).value =
        records.find? (fun record => record.adapter.accepts k w) ∧
      ((firstSupporting k records).run w).world = w := by
  induction records with
  | nil => exact ⟨rfl, rfl⟩
  | cons first rest ih =>
    obtain ⟨hfirst, hrest⟩ := List.forall_mem_cons.mp pure
    -- the first has left the world as it was, so the rest are asked in the same one
    have hworld : ((first.adapter.askSupports k).run w).world = w := hfirst w
    have hasked : ((first.adapter.askSupports k).run w).value = first.adapter.accepts k w := rfl
    rw [firstSupporting, Act.run_bind]
    dsimp only
    rw [hasked, hworld, List.find?_cons]
    cases first.adapter.accepts k w with
    | true => exact ⟨rfl, rfl⟩
    | false => exact ih hrest

/-- The owner of a key is the first candidate that accepts it, and asking for it has no effect. -/
theorem Reachable.run_owner_of_pure (h : r.Reachable)
    (pure : ∀ record ∈ r.records, ∀ w, ((record.adapter.supports k).run w).world = w) (w : ω) :
    ((r.owner k).run w).value =
        ((r.candidates k).find? fun record => record.adapter.accepts k w).elim
          (.error .unsupportedParameter) .ok ∧
      ((r.owner k).run w).world = w := by
  have hcandidates : r.candidates k ⊆ r.records := by
    -- whether or not the key tells its algorithm, only records are asked
    unfold candidates
    split
    · exact List.filter_subset_self _
    · exact List.Subset.refl _
  obtain ⟨hvalue, hworld⟩ := run_firstSupporting_of_pure
    (fun record hrecord => pure record (hcandidates hrecord)) w
  rw [h.owner_eq, Act.run_map]
  dsimp only
  rw [hvalue, hworld]
  exact ⟨rfl, rfl⟩

/-- **At most one record accepts a key**, whenever it is asked. -/
theorem Reachable.eq_of_accepts (h : r.Reachable)
    (contract : ∀ record ∈ r.records, record.adapter.KeepsContract record.oid belongs)
    {a b : Record ω β} (ha : a ∈ r.records) (hb : b ∈ r.records) {w w' : ω}
    (hacceptsA : a.adapter.accepts k w = true) (hacceptsB : b.adapter.accepts k w' = true) :
    a = b := by
  have hoidA : belongs k = some a.oid := (contract a ha).own k w hacceptsA
  have hoidB : belongs k = some b.oid := (contract b hb).own k w' hacceptsB
  have hoid : a.oid = b.oid := Option.some.inj (hoidA.symm.trans hoidB)
  -- the key belongs to one algorithm, and no two records share an object identifier
  exact List.inj_on_of_nodup_map h.exactLookup_oid.distinct ha hb hoid

/-! ### Operations -/

/-- **The registry `r` does for `k` what `r'` does for `k'`**, though it may ask others on the
way. -/
structure ServesAlike (r : Registry ω β) (k : Key β) (r' : Registry ω β) (k' : Key β) : Prop where
  owner : (r.owner k).Agrees (r'.owner k')
  supportsKey : (r.supportsKey k).Agrees (r'.supportsKey k')
  writePrivateKey : ∀ attributes,
    (r.writePrivateKey k attributes).Agrees (r'.writePrivateKey k' attributes)
  writePublicKey : (r.writePublicKey k).Agrees (r'.writePublicKey k')
  signatureEngine : (r.signatureEngine k).Agrees (r'.signatureEngine k')

/-- The operations agree if the owner is the same and writes both keys alike. -/
theorem servesAlike_of_owner (howner : (r.owner k).Agrees (r'.owner k'))
    (hprivate : ∀ record ∈ r.records, ∀ attributes,
      (record.adapter.writePrivateKey k attributes).Agrees
        (record.adapter.writePrivateKey k' attributes))
    (hpublic : ∀ record ∈ r.records,
      (record.adapter.writePublicKey k).Agrees (record.adapter.writePublicKey k')) :
    ServesAlike r k r' k' where
  owner := howner
  supportsKey := howner.bind fun _ => .refl _
  writePrivateKey attributes := howner.andThen fun record _ hrecord =>
    record.adapter.agrees_attempt _ (hprivate record (mem_of_owner hrecord).1 attributes)
  writePublicKey := howner.andThen fun record _ hrecord =>
    record.adapter.agrees_attempt _ (hpublic record (mem_of_owner hrecord).1)
  signatureEngine := howner.andThen fun _ _ _ => .refl _

/-- **The order in which adapters are asked is irrelevant.** -/
theorem Reachable.servesAlike (h : r.Reachable) (h' : r'.Reachable) (same : SameRecords r r')
    (contract : ∀ record ∈ r.records, record.adapter.KeepsContract record.oid belongs)
    (untagged : k.algorithm? = none) : ServesAlike r k r' k := by
  have howner : (r.owner k).Agrees (r'.owner k) := by
    intro w
    obtain ⟨hvalue, hworld⟩ := h.run_owner_of_pure (k := k)
      (fun record hrecord => (contract record hrecord).pure k) w
    obtain ⟨hvalue', hworld'⟩ := h'.run_owner_of_pure (k := k)
      (fun record hrecord => (contract record ((same record).mpr hrecord)).pure k) w
    have hfound : r.records.find? (fun record => record.adapter.accepts k w) =
        r'.records.find? (fun record => record.adapter.accepts k w) :=
      find?_eq_of_unique (fun a ha b hb => h.eq_of_accepts contract ha hb) same
    rw [candidates_of_untagged untagged] at hvalue hvalue'
    -- the worlds agree because being asked has no effect on either side
    rw [hvalue, hvalue', hfound, hworld, hworld']
    exact ⟨rfl, rfl⟩
  exact servesAlike_of_owner howner (fun _ _ _ => .refl _) fun _ _ => .refl _

/-- **A key need not tell its algorithm**: the search through all adapters comes to what the one
adapter says. -/
theorem Reachable.servesAlike_tagged (h : r.Reachable)
    (contract : ∀ record ∈ r.records, record.adapter.KeepsContract record.oid belongs)
    (ignores : ∀ record ∈ r.records, record.adapter.IgnoresTag)
    (untagged : k.algorithm? = none) {oid : Oid} (hoid : belongs k = some oid) :
    ServesAlike r (k.tagged oid) r k := by
  have howner : (r.owner (k.tagged oid)).Agrees (r.owner k) := by
    intro w
    obtain ⟨hvalue, hworld⟩ := h.run_owner_of_pure (k := k)
      (fun record hrecord => (contract record hrecord).pure k) w
    obtain ⟨hvalue', hworld'⟩ := h.run_owner_of_pure (k := k.tagged oid)
      (fun record hrecord => (contract record hrecord).pure (k.tagged oid)) w
    have hfound : (r.records.filter fun record => record.oid = oid).find?
          (fun record => record.adapter.accepts (k.tagged oid) w) =
        r.records.find? (fun record => record.adapter.accepts k w) := by
      -- a record that accepts the key has the identifier, and says the same of the tagged key, so
      -- it makes no difference whether those with another identifier are left out
      rw [List.find?_filter]
      apply List.find?_congr
      intro record hrecord
      have htag : record.adapter.accepts (k.tagged oid) w = record.adapter.accepts k w :=
        ((ignores record hrecord).supports k oid w).1
      cases haccepts : record.adapter.accepts k w with
      | false =>
        rw [htag, haccepts]
        exact decide_eq_false fun both => Bool.false_ne_true both.2
      | true =>
        -- who accepts the key has the object identifier that it belongs to
        have hown : belongs k = some record.oid := (contract record hrecord).own k w haccepts
        have heq : record.oid = oid := Option.some.inj (hown.symm.trans hoid)
        rw [htag, haccepts]
        exact decide_eq_true ⟨decide_eq_true heq, rfl⟩
    rw [candidates_of_untagged untagged] at hvalue
    have tagged : (k.tagged oid).algorithm? = some oid := rfl
    rw [candidates_of_tagged tagged] at hvalue'
    rw [hvalue, hvalue', hfound, hworld, hworld']
    exact ⟨rfl, rfl⟩
  exact servesAlike_of_owner howner
    (fun record hrecord attributes => (ignores record hrecord).writePrivateKey k oid attributes)
    fun record hrecord => (ignores record hrecord).writePublicKey k oid

/-! ### The hash scheme -/

end Registry

/-- The algorithm that a key of the hash scheme belongs to. -/
def Sample.KeyBody.scheme? : Sample.KeyBody → Option Oid
  | .hash key => some key.scheme
  | .foreign => none

/-- Adapters of the hash scheme keep their contract, whatever the hash function. -/
theorem Sample.HashScheme.keepsContract (hash : Bytes → Bytes) (s : HashScheme) (label : String) :
    (adapter hash s label : Adapter ω KeyBody).KeepsContract s.oid fun k => k.body.scheme? where
  pure _ _ := rfl
  own k w haccepts := by
    have hbody : (s.body? k).isOk = true := haccepts
    -- a body is taken for the scheme's own only if it names the scheme
    unfold body? at hbody
    split at hbody
    · next body hk =>
      split at hbody
      · next hscheme => rw [hk, KeyBody.scheme?, hscheme]
      · cases hbody
    · cases hbody

/-- They look at the body of a key only. -/
theorem Sample.HashScheme.ignoresTag (hash : Bytes → Bytes) (s : HashScheme) (label : String) :
    (adapter hash s label : Adapter ω KeyBody).IgnoresTag where
  supports _ _ := .refl _
  writePrivateKey _ _ _ := .refl _
  writePublicKey _ _ := .refl _

/-- The record holds an adapter of the hash scheme under the adapter's own object identifier. -/
def Record.HoldsHashScheme (hash : Bytes → Bytes) (record : Record ω Sample.KeyBody) : Prop :=
  ∃ encoding label, record.adapter = Sample.HashScheme.adapter hash ⟨record.oid, encoding⟩ label

namespace Registry

/-- **Adapters that keep their contract may be asked in any order.** At most one record accepts a
key; a key that does not tell its algorithm comes to the same in any two registries with the same
records, whatever their histories; and where adapters do not look at what a key tells, it comes to
the same as the key that tells its algorithm. All this is so for registries of the hash scheme. -/
theorem probe_order_irrelevant :
    (∀ {ω β : Type} (history : List (Change ω β × ω)) (belongs : Key β → Option Oid),
      let r := ofHistory history
      (∀ record ∈ r.records, record.adapter.KeepsContract record.oid belongs) →
        (∀ k, ∀ a ∈ r.records, ∀ b ∈ r.records, ∀ w w',
          a.adapter.accepts k w = true → b.adapter.accepts k w' = true → a = b) ∧
        (∀ history', SameRecords r (ofHistory history') → ∀ k, k.algorithm? = none →
          ServesAlike r k (ofHistory history') k) ∧
        ((∀ record ∈ r.records, record.adapter.IgnoresTag) → ∀ k oid, k.algorithm? = none →
          belongs k = some oid → ServesAlike r (k.tagged oid) r k)) ∧
      ∀ {ω : Type} (hash : Bytes → Bytes) (r : Registry ω Sample.KeyBody),
        (∀ record ∈ r.records, record.HoldsHashScheme hash) → ∀ record ∈ r.records,
          record.adapter.KeepsContract record.oid (fun k => k.body.scheme?) ∧
            record.adapter.IgnoresTag := by
  refine ⟨?_, ?_⟩
  · intro ω β history belongs r contract
    have h : r.Reachable := reachable_ofHistory history
    refine ⟨?_, ?_, ?_⟩
    · intro k a ha b hb w w'
      exact h.eq_of_accepts contract ha hb
    · intro history' same k untagged
      exact h.servesAlike (reachable_ofHistory history') same contract untagged
    · intro ignores k oid untagged hoid
      exact h.servesAlike_tagged contract ignores untagged hoid
  · intro ω hash r hrecords record hrecord
    obtain ⟨encoding, label, hadapter⟩ := hrecords record hrecord
    rw [hadapter]
    exact ⟨Sample.HashScheme.keepsContract hash ⟨record.oid, encoding⟩ label,
      Sample.HashScheme.ignoresTag hash ⟨record.oid, encoding⟩ label⟩

/-- Two variants of the hash scheme in either order. The adapter that is asked first is another one,
and what becomes of the key is the same. -/
theorem probe_order_irrelevant_hash_schemes :
    let oid : Oid := ⟨[0x2a, 0x03, 0x04]⟩
    let oid' : Oid := ⟨[0x2a, 0x03, 0x05]⟩
    let adapter : Adapter Unit Sample.KeyBody := Sample.HashScheme.adapter id ⟨oid, .flat⟩ "a"
    let adapter' : Adapter Unit Sample.KeyBody := Sample.HashScheme.adapter id ⟨oid', .nested⟩ "b"
    let call : Change Unit Sample.KeyBody × Unit := (.register ⟨"A", oid, ⟨1⟩⟩ adapter, ())
    let call' : Change Unit Sample.KeyBody × Unit := (.override ⟨"B", oid', ⟨2⟩⟩ adapter', ())
    let r := ofHistory [call, call']
    let r' := ofHistory [call', call]
    let k := (Sample.HashScheme.key oid' true []).untagged
    (r.records ≠ r'.records ∧ k.algorithm? = none ∧ k.body.scheme? = some oid') ∧
      ServesAlike r k r' k ∧ ServesAlike r (k.tagged oid') r k ∧
      ((r.owner k).run ()).value = .ok ⟨⟨"B", oid', ⟨2⟩⟩, adapter', .nested⟩ ∧
      adapterCalls ((r.owner k).run ()).marks = [("a", .supports), ("b", .supports)] ∧
      adapterCalls ((r'.owner k).run ()).marks = [("b", .supports)] := by
  intro oid oid' adapter adapter' call call' r r' k
  have schemes : ∀ record ∈ r.records, record.HoldsHashScheme id := by
    intro record hrecord
    have hrecord : record ∈ [_, _] := hrecord
    rcases List.mem_pair.mp hrecord with rfl | rfl
    · exact ⟨.flat, "a", rfl⟩
    · exact ⟨.nested, "b", rfl⟩
  have kept := probe_order_irrelevant.2 id r schemes
  have irrelevant := probe_order_irrelevant.1 [call, call'] (fun k => k.body.scheme?)
    fun record hrecord => (kept record hrecord).1
  -- the two calls do not collide, so in either order both records are there
  have same : SameRecords r r' := by
    intro record
    show record ∈ [_, _] ↔ record ∈ [_, _]
    rw [List.mem_pair, List.mem_pair, or_comm]
  -- adapters are functions, so the two orders are told apart by the names
  have hne : r.records ≠ r'.records := by
    intro heq
    have hnames : r.records.map (·.name) = r'.records.map (·.name) := by rw [heq]
    exact absurd hnames (by decide)
  exact ⟨⟨hne, rfl, rfl⟩, irrelevant.2.1 [call', call] same k rfl,
    irrelevant.2.2 (fun record hrecord => (kept record hrecord).2) k oid' rfl rfl, rfl, rfl, rfl⟩

end Registry

end SignatureCatalog
