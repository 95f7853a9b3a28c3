import Compliance.Proofs.Running

/-! Runs that are to be quiet. The two runs are compared step by step, in any monad that has files: from
transcripts with the same records they come to the same, whatever either of them has printed before. -/
namespace Compliance

namespace Session
variable {m : Type → Type} [Monad m] [LawfulMonad m] {α β : Type}

/-- Whether a computation does what another one does, but for printing: it leaves on the console what
was there. -/
def Mutes (quiet loud : Session m α) : Prop :=
  ∀ r output, quiet.run { r with output := output }
    = (fun p => (p.1, { p.2 with output := output })) <$> loud.run r

private theorem Mutes.bind {quiet loud : Session m α} {f g : α → Session m β}
    (h : Mutes quiet loud) (hf : ∀ a, Mutes (f a) (g a)) : Mutes (quiet >>= f) (loud >>= g) := by
  intro r output
  rw [StateT.run_bind, StateT.run_bind, h, map_bind, bind_map_left]
  apply bind_congr
  intro p
  exact hf p.1 p.2 output

/-- What the loud computation prints first is no matter. -/
private theorem Mutes.skip {quiet : Session m α} {loud : Unit → Session m α}
    {lines : List String} (h : Mutes quiet (loud ())) : Mutes quiet (print lines >>= loud) := by
  intro r output
  rw [StateT.run_bind, print, StateT.run_modify, pure_bind]
  exact h { r with output := r.output ++ lines } output

end Session

namespace Run
open Session

section
variable {m : Type → Type} [Monad m] [LawfulMonad m] [FileStore m] (takeStamp : m RunStamp)
  (o : Options) (s : Settings)

end

end Run
end Compliance
