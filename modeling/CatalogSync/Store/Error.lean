/-! Why a call to a store failed. -/

namespace CatalogSync

inductive StoreError
  /-- There was no answer. -/
  | transport (message : String) (retryable : Bool)
  | rejected (status : Nat) (message : String)
  | notFound (message : String)
  /-- The answer could not be understood. -/
  | codec (message : String)
  deriving DecidableEq, Repr, Inhabited

namespace StoreError

def message : StoreError → String
  | transport m _ => "transport error: " ++ m
  | rejected status m => "store rejected request (" ++ toString status ++ "): " ++ m
  | notFound m => "not found: " ++ m
  | codec m => "codec error: " ++ m

/-- May the same call succeed later? -/
def retryable : StoreError → Bool
  | transport _ r => r
  | rejected status _ => status == 429 || status ≥ 500
  | notFound _ | codec _ => false

end StoreError
end CatalogSync
