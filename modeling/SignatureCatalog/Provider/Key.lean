import SignatureCatalog.Oid.Basic

/-!
# Provider keys

A host security provider keeps its entries under two kinds of keys. A service key names an algorithm
within one of four services. An alias key stands for an object identifier, in one of the two
spellings under which identifiers are looked up, and leads to a name.

Keys are ordered by kind, services first, then by service, then by name, or by identifier and
spelling; a provider lists its entries in that order.
-/

namespace SignatureCatalog

/-- The services of a provider that an algorithm takes part in. -/
inductive Service where
  | signature
  | keyFactory
  | keyPairGenerator
  | algorithmParameters
  deriving DecidableEq, Repr

/-- The spellings of an object identifier: `1.2.3.4` and `OID.1.2.3.4`. -/
inductive AliasForm where
  | dotted
  | prefixed
  deriving DecidableEq, Repr

/-- What an entry of a provider is kept under. -/
inductive ProviderKey where
  | service (service : Service) (name : String)
  | alias (service : Service) (oid : Oid) (form : AliasForm)
  deriving DecidableEq, Repr

namespace Service

/-- Every service, in order. -/
def all : List Service :=
  [.signature, .keyFactory, .keyPairGenerator, .algorithmParameters]

/-- The place of a service among all. -/
def index : Service → Nat
  | .signature => 0
  | .keyFactory => 1
  | .keyPairGenerator => 2
  | .algorithmParameters => 3

/-- The name a provider knows a service by. -/
def text : Service → String
  | .signature => "Signature"
  | .keyFactory => "KeyFactory"
  | .keyPairGenerator => "KeyPairGenerator"
  | .algorithmParameters => "AlgorithmParameters"

theorem mem_all (s : Service) : s ∈ all := by
  cases s <;> decide

end Service

namespace AliasForm

/-- Both spellings, in order. -/
def all : List AliasForm := [.dotted, .prefixed]

/-- The place of a spelling. -/
def index : AliasForm → Nat
  | .dotted => 0
  | .prefixed => 1

/-- What stands in front of the identifier. -/
def lead : AliasForm → String
  | .dotted => ""
  | .prefixed => "OID."

theorem mem_all (f : AliasForm) : f ∈ all := by
  cases f <;> decide

end AliasForm

namespace ProviderKey

/-- Whether a key stands for an object identifier. -/
def isAlias : ProviderKey → Bool
  | .service .. => false
  | .alias .. => true

/-- The key as a provider writes it. -/
def text : ProviderKey → String
  | .service s name => s.text ++ "." ++ name
  | .alias s oid form => "Alg.Alias." ++ s.text ++ "." ++ form.lead ++ oid.text

/-- Services before aliases; then service by service. -/
def compareKeys : ProviderKey → ProviderKey → Ordering
  | .service s name, .service s' name' => (compare s.index s'.index).then (compare name name')
  | .service .., .alias .. => .lt
  | .alias .., .service .. => .gt
  | .alias s oid form, .alias s' oid' form' =>
    (compare s.index s'.index).then <|
      (compare oid oid').then (compare form.index form'.index)

instance : Ord ProviderKey := ⟨compareKeys⟩

/-- The alias keys of an object identifier: every service in both spellings. -/
def aliases (oid : Oid) : List ProviderKey :=
  Service.all.flatMap fun s => AliasForm.all.map fun form => .alias s oid form

/-- The alias keys of an identifier are exactly those that stand for it. -/
theorem mem_aliases_iff {oid : Oid} {key : ProviderKey} :
    key ∈ aliases oid ↔ ∃ s form, key = .alias s oid form := by
  simp only [aliases, List.mem_flatMap, List.mem_map]
  constructor
  · rintro ⟨s, _, form, _, rfl⟩; exact ⟨s, form, rfl⟩
  · rintro ⟨s, form, rfl⟩; exact ⟨s, s.mem_all, form, form.mem_all, rfl⟩

end ProviderKey

end SignatureCatalog
