import SignatureCatalog.Oid.Basic
import SignatureCatalog.SignatureScheme

/-!
# Identities

One signature algorithm goes by three identifiers: the name a provider offers it under, the object
identifier in certificates, and the TLS signature scheme. Two identities collide when they share any
of the three, so that an identifier could mean either algorithm.
-/

namespace SignatureCatalog

/-- The three identifiers of an algorithm. -/
structure Identity where
  name : String
  oid : Oid
  scheme : SignatureScheme
  deriving DecidableEq, Repr

namespace Identity

/-- Whether any of the three identifiers is shared. -/
def collidesWith (a b : Identity) : Bool :=
  a.name = b.name ∨ a.oid = b.oid ∨ a.scheme = b.scheme

/-- The name, then the other two in parentheses. -/
def text (a : Identity) : String :=
  a.name ++ " (" ++ a.oid.text ++ ", " ++ a.scheme.text ++ ")"

theorem collidesWith_iff {a b : Identity} :
    a.collidesWith b = true ↔ a.name = b.name ∨ a.oid = b.oid ∨ a.scheme = b.scheme := by
  simp [collidesWith]

/-- Collision does not depend on who came first. -/
theorem collidesWith_comm (a b : Identity) : a.collidesWith b = b.collidesWith a := by
  simp [collidesWith, eq_comm]

end Identity

end SignatureCatalog
