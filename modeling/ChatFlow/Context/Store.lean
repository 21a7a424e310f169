import ChatFlow.Context.Basic

/-!
# The context store

The store keeps the latest context of every session. A session is addressed by its tenant and its
own id, joined by a colon.
-/

namespace ChatFlow

def sessionKey (tenant session : String) : String :=
  tenant ++ ":" ++ session

/-- The beginning of the keys of a tenant. -/
def tenantMark (tenant : String) : String :=
  tenant ++ ":"

/-- The keys that begin with the mark of a tenant, or all keys. -/
def keysOf (tenant : Option String) (keys : List String) : List String :=
  match tenant with
  | none => keys
  | some t => keys.filter fun k => (tenantMark t).toList.isPrefixOf k.toList

/-- The latest context of every session, in the order in which the sessions were first saved. -/
structure ContextStore where
  contexts : Table String Context := []
  deriving Inhabited

namespace ContextStore

def save (s : ContextStore) (tenant session : String) (c : Context) : ContextStore :=
  ⟨s.contexts.insert (sessionKey tenant session) c⟩

def get? (s : ContextStore) (tenant session : String) : Option Context :=
  s.contexts.get? (sessionKey tenant session)

def delete (s : ContextStore) (tenant session : String) : ContextStore :=
  ⟨s.contexts.erase (sessionKey tenant session)⟩

/-- The keys of all sessions, or of those of one tenant. -/
def keys (s : ContextStore) (tenant : Option String) : List String :=
  keysOf tenant s.contexts.keys

def keysByStatus (s : ContextStore) (status : SessionStatus) : List String :=
  (s.contexts.filter fun e => e.2.status = status).map Prod.fst

def size (s : ContextStore) : Nat := s.contexts.length

end ContextStore

end ChatFlow
