import EventLoop.System.Run
import EventLoop.Tree.Basic

/-!
# Trees as roots

A reactor tree as the root of the loop. What its leaves act on holds the loop as one part.

## Main definitions

* `Turn.ofTree` — one turn of a tree, as a turn of a root.
-/

namespace EventLoop

/-- One turn of a tree as the root of the loop. The leaves act on a world `ω`, which is made
of the loop and of the rest `σ`. -/
def Turn.ofTree {L F : Payload → Payload → Type} {σ ω : Type} (b : Behaviour L F (StateM ω))
    (join : σ → Loop → ω) (split : ω → σ × Loop) {p q : Payload} (input : Reaction p.Val) :
    Turn (Tree L F p q × σ) (Reaction q.Val) := modifyGet fun ((t, s), l) =>
  let ((out, t), w) := (t.react b input).run (join s l)
  (out, ((t, (split w).1), (split w).2))

end EventLoop
