import CatalogSync.Entity.Basic

/-! Small catalogs of a known shape. -/

namespace CatalogSync.Sample

def serviceRef (identifier : String) : EntityRef := ⟨identifier, "service"⟩

def service (identifier : String) : Entity :=
  { identifier, blueprint := "service" : Entity }.withProperty "language" (.string "rust")

def team (identifier : String) : Entity := { identifier, blueprint := "team" }

def numbered (stem : String) (i : Nat) : String := stem ++ "-" ++ toString i

/-- The entity number `i` of a chain depends on the one before it. -/
def link (blueprint : String) (i : Nat) : Entity :=
  let e : Entity := { identifier := numbered blueprint i, blueprint }
  if i = 0 then e else e.withRelation "depends_on" (.one (numbered blueprint (i - 1)))

def chain (blueprint : String) (n : Nat) : List Entity := (List.range n).map (link blueprint)

/-- Services that all belong to one team, which comes last. -/
def star (hub : String) (n : Nat) : List Entity :=
  (List.range n).map (fun i => (service (numbered (hub ++ "-svc") i)).withRelation "owner" (.one hub)) ++ [team hub]

end CatalogSync.Sample
