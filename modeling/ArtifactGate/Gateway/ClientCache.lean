/-!
The clients made for repositories, at most `capacity` of them. Asking for one is a use; the one whose
last use lies furthest back makes room.
-/
namespace ArtifactGate

structure ClientCache where
  capacity : Nat
  /-- Repositories and the numbers of their clients, the last used first. -/
  clients : List (String × Nat) := []
  next : Nat := 0
  deriving DecidableEq, Repr, Inhabited

namespace ClientCache

def use (cache : ClientCache) (repository : String) : Nat × ClientCache :=
  match cache.clients.lookup repository with
  | some client =>
    let others := cache.clients.filter fun entry => entry.1 != repository
    (client, { cache with clients := (repository, client) :: others })
  | none =>
    (cache.next,
      { cache with
        clients := ((repository, cache.next) :: cache.clients).take cache.capacity
        next := cache.next + 1 })

def size (cache : ClientCache) : Nat :=
  cache.clients.length

def clear (cache : ClientCache) : ClientCache :=
  { cache with clients := [] }

end ClientCache

end ArtifactGate
