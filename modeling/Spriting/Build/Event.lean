/-!
# Events of a build

What a build tells those who listen to it.  A listener that names kinds of
events hears those kinds only; one that names none hears everything.  Listeners
are called in the order in which they came.
-/

namespace Spriting.Build

inductive EventKind where
  | started
  | skipped
  | groupsFormed
  | groupPacked
  | spriteEmitted
  | groupPlaced
  | completed
  | failed
deriving DecidableEq, Repr

inductive Event where
  | started (resource : String)
  /-- The sheet does not ask for sprite sheets and is passed on as it is. -/
  | skipped (resource : String)
  | groupsFormed (resource : String) (count : Nat)
  | groupPacked (ratio : Nat) (repeatMode : String) (images width height : Nat)
  | spriteEmitted (url : String) (size : Nat)
  | groupPlaced (url : String) (selectors : List String)
  | completed (resource : String) (sprites : Nat)
  | failed (resource error : String)
deriving DecidableEq, Repr

def Event.kind : Event → EventKind
  | started _ => .started
  | skipped _ => .skipped
  | groupsFormed _ _ => .groupsFormed
  | groupPacked _ _ _ _ _ => .groupPacked
  | spriteEmitted _ _ => .spriteEmitted
  | groupPlaced _ _ => .groupPlaced
  | completed _ _ => .completed
  | failed _ _ => .failed

/-- A listener: the kinds it names and what it does with an event. -/
structure Listener (ε α : Type) where
  kinds : List EventKind
  call : ε → α

def Listener.hears (l : Listener ε α) (kind : EventKind) : Bool :=
  l.kinds.isEmpty || l.kinds.contains kind

/-- What the listeners do with an event of this kind, one after another. -/
def announce (listeners : List (Listener ε α)) (kind : EventKind) (event : ε) : List α :=
  (listeners.filter (·.hears kind)).map (·.call event)

end Spriting.Build
