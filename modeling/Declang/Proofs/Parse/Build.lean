import Declang.Parse.Build
import Declang.Proofs.Arena.Linked
namespace Declang

namespace Builder

variable {α β : Type} {arena arena' : Arena}

theorem bind_eq {x : Builder α} {a : α} (f : α → Builder β) (h : x arena = (.ok a, arena')) :
    (x >>= f) arena = f a arena' := by
  simp only [bind, ExceptT.bind, ExceptT.mk, StateT.bind]
  rw [h]
  rfl

theorem bind_eq_error {x : Builder α} {e : ParseError} (f : α → Builder β)
    (h : x arena = (.error e, arena')) : (x >>= f) arena = (.error e, arena') := by
  simp only [bind, ExceptT.bind, ExceptT.mk, StateT.bind]
  rw [h]
  rfl

theorem read_eq {reading : Except Defect α} {a : α} (h : reading = .ok a) (arena : Arena) :
    read reading arena = (.ok a, arena) := by
  rw [h]
  rfl

theorem attach_eq {parent : NodeId} (h : parent ≤ arena.size) (kind : NodeKind) :
    attach parent kind arena = (.ok arena.size, arena.grow parent kind) := by
  rw [attach, bind_eq _ (rfl : (get : Builder Arena) arena = (.ok arena, arena)),
    Arena.attach?_eq, if_pos h]
  rfl

theorem discard_eq {x : Builder α} {a : α} (h : x arena = (.ok a, arena')) :
    (discard x : Builder PUnit) arena = (.ok (), arena') := by
  change (Functor.map (Function.const α PUnit.unit) x : Builder PUnit) arena = _
  simp only [Functor.map, ExceptT.map, ExceptT.mk, StateT.bind, bind]
  rw [h]
  rfl

theorem discard_bind (x : Builder α) (f : PUnit → Builder β) :
    (discard x >>= f) = x >>= fun _ => f PUnit.unit :=
  bind_map_left (Function.const α PUnit.unit) x f

theorem parentOf_eq {id : NodeId} {node : Node} (h : arena.get? id = some node) :
    parentOf id arena = (.ok node.parent, arena) := by
  rw [parentOf, bind_eq _ (rfl : (get : Builder Arena) arena = (.ok arena, arena)), h]
  rfl

end Builder

section Build

variable {arena : Arena} {position : Position} {tokens : List Token}

theorem build_function {f : Function} (hcursor : position.cursor = Arena.root)
    (hlocation : position.location = .program) (hread : readFunction tokens = .ok f)
    (arena : Arena) :
    build .functionDefinition tokens position arena =
      (.ok (position.enter .function arena.size), arena.grow Arena.root (.function f)) := by
  have hplace : ¬(position.cursor ≠ Arena.root ∨ position.location ≠ .program) := by
    rw [not_or, not_not, not_not]
    exact ⟨hcursor, hlocation⟩
  simp only [build, if_neg hplace]
  rw [Builder.bind_eq _ (Builder.read_eq hread arena), hcursor]
  exact Builder.bind_eq _ (Builder.attach_eq (Nat.zero_le _) _)

theorem build_variable {v : Variable} (hread : readVariable tokens = .ok v)
    (hcursor : position.cursor ≤ arena.size) :
    build .variableDeclaration tokens position arena =
      (.ok position, arena.grow position.cursor (.declaration v)) := by
  simp only [build]
  rw [Builder.bind_eq _ (Builder.read_eq hread arena)]
  exact Builder.bind_eq _ (Builder.discard_eq (Builder.attach_eq hcursor _))

theorem build_return (hlocation : position.location = .function)
    (hread : readReturned tokens = .ok none) (hcursor : position.cursor ≤ arena.size) :
    build .returnStatement tokens position arena =
      (.ok position, arena.grow position.cursor .return_) := by
  simp only [build, if_neg (not_not.2 hlocation)]
  rw [Builder.bind_eq _ (Builder.read_eq hread arena)]
  exact Builder.bind_eq _ (Builder.attach_eq hcursor _)

theorem build_return_some {kind : NodeKind} (hlocation : position.location = .function)
    (hread : readReturned tokens = .ok (some kind)) (hcursor : position.cursor ≤ arena.size) :
    build .returnStatement tokens position arena =
      (.ok position, (arena.grow position.cursor .return_).grow arena.size kind) := by
  have hid := arena.size_le_size_grow position.cursor .return_
  simp only [build, if_neg (not_not.2 hlocation)]
  rw [Builder.bind_eq _ (Builder.read_eq hread arena),
    Builder.bind_eq _ (Builder.attach_eq hcursor .return_)]
  exact Builder.bind_eq _ (Builder.discard_eq (Builder.attach_eq hid kind))

theorem build_close {token : Token} {node : Node} {parent : NodeId}
    (hread : expectKind .closeBrace tokens 0 .closeBrace = .ok token) (cursor : NodeId)
    (hnode : arena.get? cursor = some node) (hparent : node.parent = some parent)
    (entered : List Location) :
    build .closeBrace tokens ⟨cursor, .function :: entered⟩ arena =
      (.ok ⟨parent, entered⟩, arena) := by
  simp only [build]
  rw [Builder.bind_eq _ (Builder.discard_eq (Builder.read_eq hread arena))]
  change (Builder.parentOf cursor >>= _) arena = _
  rw [Builder.bind_eq _ (Builder.parentOf_eq hnode), hparent]
  rfl

end Build

end Declang
