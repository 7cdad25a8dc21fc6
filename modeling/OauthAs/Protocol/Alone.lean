-- SUMMARY: Handlers that run alone: what each kind of call answers and leaves.
import OauthAs.Lib.Lockstep
import OauthAs.Protocol.Moves

/-!
# Requests that run alone

A world in which nothing else goes on still leaves open what the limiter, the policies and the
source of randomness answer. `World.resolved` decides that as it is told.
-/

namespace OauthAs

/-- Whether a run ended well, and as described. -/
def Sample.endsWell {ε α : Type} (good : α → World → Bool) : Except ε α × World → Bool
  | (.ok a, w) => good a w
  | (.error _, _) => false

/-- A world in which nothing else goes on; what it leaves open is decided as given. -/
def World.resolved (choice : World → Effect → Choice) (w : World) (e : Effect) :
    Option (e.Answer × World) :=
  w.perform e (choice w e)

namespace Server

open Prog Handler

variable {choice : World → Effect → Choice} {w w' : World} {ε : Type}

theorem store_of_exec_perform {e : Effect} {r : e.Answer} (he : e.isStorage = false)
    (h : exec (World.resolved choice) w (Handler.perform e : Handler ε e.Answer).run =
      some (.ok r, w')) : w'.store = w.store :=
  (World.frame_of_perform he (exec_performE_ok.mp h)).1

theorem exec_of_exec_storeOr {onError : StorageError → ε} {op : StorageOp} {a : op.Result}
    (h : exec (World.resolved choice) w (storeOr onError op).run = some (.ok a, w')) :
    op.exec w.store = (.ok a, w'.store) ∧ w'.clock = w.clock := by
  obtain ⟨r, v, hcall, h⟩ := exec_bind_ok.mp h
  obtain ⟨hexec, hclock, -⟩ := World.perform_storage (exec_performE_ok.mp hcall)
  cases r with
  | ok b =>
    obtain ⟨rfl, rfl⟩ := exec_pure_ok.mp h
    exact ⟨hexec, hclock⟩
  | error e => cases exec_throw_ok h

theorem exec_of_exec_require {α : Type} {error : ε} {o : Option α} {a : α}
    (h : exec (World.resolved choice) w (require error o).run = some (.ok a, w')) :
    o = some a ∧ w = w' := by
  cases o with
  | none => cases exec_throw_ok h
  | some b =>
    obtain ⟨rfl, rfl⟩ := exec_pure_ok.mp h
    exact ⟨rfl, rfl⟩

theorem exec_judge {α : Type} (x : Except ε α) :
    exec (World.resolved choice) w (judge x).run = some (x, w) := by
  cases x <;> rfl

end Server

end OauthAs
