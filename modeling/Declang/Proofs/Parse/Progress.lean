import Declang.Parse
import Declang.Proofs.Arena.Grown
import Declang.Proofs.Parse.Build
import Declang.Proofs.Parse.Read
namespace Declang

/-- How far a parse has come: at program level, or in the body of the last function. -/
inductive Progress where
  | top (done : List Item)
  | inside (done : List Item) (f : Function) (body : List Statement)
  deriving DecidableEq, Repr

namespace Progress

def items : Progress → List Item
  | top done => done
  | inside done f body => done ++ [.function f body]

def arena (p : Progress) : Arena :=
  .ofTree (.program p.items)

def position : Progress → Position
  | top _ => .start
  | inside done _ _ => ⟨Arena.root + 1 + Tree.sizes (done.map Item.tree), [.function]⟩

/-- What the tokens read so far told. -/
def traces : Progress → List Trace
  | top done => done.flatMap Item.traces
  | inside done f body =>
    done.flatMap Item.traces ++ (f.header ++ body.flatMap Statement.traces)

/-- How a clause carries on, where it may stand. -/
def next? : Progress → Clause → Option Progress
  | top done, .header f => some (inside done f [])
  | top done, .declaration v => some (top (done ++ [.declaration v]))
  | inside done f body, .declaration v => some (inside done f (body ++ [.declaration v]))
  | inside done f body, .return_ returned => some (inside done f (body ++ [.return_ returned]))
  | inside done f body, .close => some (top (done ++ [.function f body]))
  | _, _ => none

theorem exists_next?_iff (p : Progress) (clause : Clause) :
    (∃ p', p.next? clause = some p') ↔
      clause.production.legalAt p.position.location = true := by
  cases p <;> cases clause <;>
    simp [next?, Clause.production, Production.legalAt, position, Position.start, Position.location]

theorem traces_next? {p p' : Progress} {clause : Clause} (h : p.next? clause = some p') :
    p'.traces = p.traces ++ clause.traces := by
  cases p <;> cases clause <;> cases h <;>
    simp [traces, Item.traces, Statement.traces, Clause.traces]

theorem opens_function (done : List Item) :
    Tree.Opens (fun tree => .node .program (done.map Item.tree ++ [tree])) (some Arena.root)
      (Arena.root + 1 + Tree.sizes (done.map Item.tree)) :=
  Tree.Opens.whole.child .program (done.map Item.tree)

theorem arena_inside (done : List Item) (f : Function) (body : List Statement) :
    (inside done f body).arena =
      .ofTree (.node .program (done.map Item.tree ++
        [.node (.function f) (body.map Statement.tree)])) := by
  simp [arena, items, Tree.program, Item.tree]

theorem size_inside (done : List Item) (f : Function) (body : List Statement) :
    (inside done f body).arena.size =
      (inside done f body).position.cursor + 1 + Tree.sizes (body.map Statement.tree) := by
  rw [arena_inside, Arena.size_ofTree_opens (opens_function done), Tree.size, ← Nat.add_assoc]
  rfl

theorem size_top (done : List Item) :
    (top done).arena.size = Arena.root + 1 + Tree.sizes (done.map Item.tree) := by
  rw [arena, Arena.size_ofTree, Tree.program, Tree.size, Arena.root, Nat.zero_add]
  rfl

theorem cursor_lt_size (p : Progress) : p.position.cursor < p.arena.size := by
  cases p with
  | top done => exact (top done).arena.nonempty
  | inside done f body =>
    rw [size_inside, Nat.add_assoc, Nat.add_comm 1]
    exact Nat.lt_add_of_pos_right (Nat.succ_pos _)

theorem arena_top_declaration (done : List Item) (v : Variable) :
    (top (done ++ [.declaration v])).arena =
      (top done).arena.grow Arena.root (.declaration v) := by
  rw [arena, arena, items, items, Tree.program, Tree.program, List.map_append]
  exact (Arena.grow_ofTree .whole .program (done.map Item.tree) (.declaration v)).symm

theorem arena_inside_nil (done : List Item) (f : Function) :
    (inside done f []).arena = (top done).arena.grow Arena.root (.function f) := by
  rw [arena_inside]
  exact (Arena.grow_ofTree .whole .program (done.map Item.tree) (.function f)).symm

theorem grow_inside (done : List Item) (f : Function) (body : List Statement) (kind : NodeKind) :
    (inside done f body).arena.grow (inside done f body).position.cursor kind =
      .ofTree (.node .program (done.map Item.tree ++
        [.node (.function f) (body.map Statement.tree ++ [.node kind []])])) := by
  rw [arena_inside]
  exact Arena.grow_ofTree (opens_function done) (.function f) (body.map Statement.tree) kind

theorem arena_inside_declaration (done : List Item) (f : Function) (body : List Statement)
    (v : Variable) :
    (inside done f (body ++ [.declaration v])).arena =
      (inside done f body).arena.grow (inside done f body).position.cursor (.declaration v) := by
  rw [grow_inside, arena_inside, List.map_append]
  rfl

theorem arena_inside_return (done : List Item) (f : Function) (body : List Statement) :
    (inside done f (body ++ [.return_ none])).arena =
      (inside done f body).arena.grow (inside done f body).position.cursor .return_ := by
  rw [grow_inside, arena_inside, List.map_append]
  rfl

theorem arena_inside_returned (done : List Item) (f : Function) (body : List Statement)
    (r : Returned) :
    (inside done f (body ++ [.return_ (some r)])).arena =
      ((inside done f body).arena.grow (inside done f body).position.cursor .return_).grow
        (inside done f body).arena.size r.kind := by
  have hopens := (opens_function done).child (.function f) (body.map Statement.tree)
  rw [grow_inside, arena_inside, size_inside, List.map_append]
  exact (Arena.grow_ofTree hopens .return_ [] r.kind).symm

/-- A clause that may stand next is built without a defect, and carries the parse on. -/
theorem build_eq_ok {p p' : Progress} {clause : Clause} {tokens : List Token}
    (hnext : p.next? clause = some p') (h : List.Forall₂ Trace.Of clause.traces tokens) :
    build clause.production tokens p.position p.arena = (.ok p'.position, p'.arena) := by
  have hcursor := Nat.le_of_lt p.cursor_lt_size
  cases p with
  | top done =>
    cases clause with
    | header f =>
      cases hnext
      rw [Clause.production, build_function rfl rfl (readFunction_eq_ok h), size_top,
        arena_inside_nil]
      rfl
    | declaration v =>
      cases hnext
      rw [Clause.production, build_variable (readVariable_eq_ok h) hcursor, arena_top_declaration]
      rfl
    | return_ returned => cases hnext
    | close => cases hnext
  | inside done f body =>
    cases clause with
    | header f => cases hnext
    | declaration v =>
      cases hnext
      rw [Clause.production, build_variable (readVariable_eq_ok h) hcursor,
        arena_inside_declaration]
      rfl
    | return_ returned =>
      cases hnext
      cases returned with
      | none =>
        rw [Clause.production, build_return rfl (readReturned_eq_ok h) hcursor, arena_inside_return]
        rfl
      | some r =>
        rw [Clause.production, build_return_some rfl (readReturned_eq_ok h) hcursor,
          arena_inside_returned]
        rfl
    | close =>
      cases hnext
      obtain ⟨token, htoken, -⟩ := @expectKind_eq_ok _ _ h 0 (.mark .closeBrace) rfl .closeBrace
      have hnode := Arena.get?_ofTree (opens_function done) (.function f) (body.map Statement.tree)
      rw [← arena_inside] at hnode
      exact build_close htoken _ hnode rfl []

theorem grown_inside {done : List Item} (h : (top done).arena.Grown) (f : Function)
    (body : List Statement) : (inside done f body).arena.Grown := by
  induction body using List.reverseRecOn with
  | nil =>
    rw [arena_inside_nil]
    exact h.grow (top done).cursor_lt_size _
  | append_singleton body statement ih =>
    have hcursor := (inside done f body).cursor_lt_size
    match statement with
    | .declaration v =>
      rw [arena_inside_declaration]
      exact ih.grow hcursor _
    | .return_ none =>
      rw [arena_inside_return]
      exact ih.grow hcursor _
    | .return_ (some r) =>
      rw [arena_inside_returned]
      refine (ih.grow hcursor _).grow ?_ _
      rw [Arena.size_grow]
      exact Nat.lt_succ_self _

/-- At every point of a parse each node was added below an earlier one. -/
theorem grown (p : Progress) : p.arena.Grown := by
  have htop (done : List Item) : (top done).arena.Grown := by
    induction done using List.reverseRecOn with
    | nil => exact .empty
    | append_singleton done item ih =>
      cases item with
      | declaration v =>
        rw [arena_top_declaration]
        exact ih.grow (top done).cursor_lt_size _
      | function f body => exact grown_inside ih f body
  cases p with
  | top done => exact htop done
  | inside done f body => exact grown_inside (htop done) f body

theorem linked (p : Progress) : p.arena.Linked :=
  p.grown.linked

end Progress

end Declang
