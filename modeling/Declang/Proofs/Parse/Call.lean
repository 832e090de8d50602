import Declang.Proofs.Parse.Effect
namespace Declang

/-- A change to an arena: a node attached at some parent, or a build step at some position. -/
inductive Call where
  | attach (parent : NodeId) (kind : NodeKind)
  | build (production : Production) (tokens : List Token) (position : Position)

namespace Call

/-- The node below which the call adds what it adds. -/
def target : Call → NodeId
  | attach parent _ => parent
  | build _ _ position => position.cursor

/-- The arena after a call that completes. A call that asks for a missing node does not; a build
step that fails for another reason does. -/
def run? (arena : Arena) : Call → Option Arena
  | attach parent kind => (arena.attach? parent kind).map Prod.snd
  | build production tokens position =>
    match Declang.build production tokens position arena with
    | (.error (.missingNode _), _) => none
    | (_, next) => some next

end Call

namespace Arena

def runAll? (arena : Arena) : List Call → Option Arena
  | [] => some arena
  | call :: calls => (call.run? arena).bind fun next => next.runAll? calls

/-- Each call that adds nodes adds them below one that is in the arena before the call. -/
def Anchored (arena : Arena) : List Call → Prop
  | [] => True
  | call :: calls =>
    ∀ next ∈ call.run? arena, (next = arena ∨ call.target < arena.size) ∧ next.Anchored calls

instance decidableAnchored (arena : Arena) :
    (calls : List Call) → Decidable (arena.Anchored calls)
  | [] => inferInstanceAs (Decidable True)
  | call :: calls =>
    have (next : Arena) := decidableAnchored next calls
    inferInstanceAs (Decidable (∀ next ∈ call.run? arena,
      (next = arena ∨ call.target < arena.size) ∧ next.Anchored calls))

/-- What a call can add: nothing, a node below its target, or such a node with one below it. The
target may be the node that is added. -/
inductive Extended (arena : Arena) (target : NodeId) : Arena → Prop where
  | nothing : Extended arena target arena
  | one (bound : target ≤ arena.size) (kind : NodeKind) :
    Extended arena target (arena.grow target kind)
  | two (bound : target ≤ arena.size) (kind value : NodeKind) :
    Extended arena target ((arena.grow target kind).grow arena.size value)

end Arena

variable {arena next : Arena}

theorem Built.extended {production : Production} {position position' : Position}
    (h : Built arena position production position' next) :
    arena.Extended position.cursor next := by
  cases h with
  | function f hcursor _ =>
    have hbound : position.cursor ≤ arena.size := by
      rw [hcursor]
      exact Nat.zero_le _
    exact .one hbound (.function f)
  | declaration v hbound => exact .one hbound (.declaration v)
  | return_ hbound => exact .one hbound .return_
  | returned kind hbound => exact .two hbound .return_ kind
  | close _ _ => exact .nothing

namespace Arena

theorem Attached.extended (h : arena.Attached) {target : NodeId}
    (hnext : arena.Extended target next) : next.Attached := by
  cases hnext with
  | nothing => exact h
  | one hbound kind => exact h.grow hbound kind
  | two hbound kind value =>
    exact (h.grow hbound kind).grow (arena.size_le_size_grow target kind) value

/-- No node becomes its own parent just when those that are added are added below an earlier
node. -/
theorem Extended.loopless_iff {target : NodeId} (h : arena.Extended target next) :
    next.Loopless ↔ arena.Loopless ∧ (next = arena ∨ target < arena.size) := by
  have hlarger (hlt : arena.size < next.size) :
      (next = arena ∨ target < arena.size) ↔ target < arena.size := by
    apply or_iff_right
    intro heq
    rw [heq] at hlt
    exact Nat.lt_irrefl _ hlt
  have hid (kind : NodeKind) : arena.size < (arena.grow target kind).size := by
    rw [size_grow]
    exact Nat.lt_succ_self _
  cases h with
  | nothing => simp only [true_or, and_true]
  | one hbound kind => rw [hlarger (hid kind), loopless_grow_iff hbound]
  | two hbound kind value =>
    -- The second node is below the first one, which is there by then.
    have hlt : arena.size < ((arena.grow target kind).grow arena.size value).size := by
      rw [size_grow]
      exact Nat.lt_succ_of_lt (hid kind)
    rw [hlarger hlt, loopless_grow_iff (Nat.le_of_lt (hid kind)), loopless_grow_iff hbound,
      and_iff_left (hid kind)]

end Arena

namespace Call

theorem run?_attach_eq_none_iff (arena : Arena) (parent : NodeId) (kind : NodeKind) :
    (attach parent kind).run? arena = none ↔ arena.size < parent := by
  rw [run?, Option.map_eq_none_iff, Arena.attach?_eq, ite_eq_right_iff]
  simp only [reduceCtorEq, imp_false, Nat.not_le]

theorem run?_spec (arena : Arena) (call : Call) :
    match call.run? arena with
    | none => arena.size ≤ call.target
    | some next => arena.Extended call.target next := by
  cases call with
  | attach parent kind =>
    rw [run?, Arena.attach?_eq]
    by_cases hbound : parent ≤ arena.size
    · rw [if_pos hbound]
      exact .one hbound kind
    · rw [if_neg hbound]
      exact Nat.le_of_not_le hbound
  | build production tokens position =>
    have houtcome := build_outcome production tokens position arena
    rw [run?]
    match hbuild : Declang.build production tokens position arena with
    | (.ok position', next) =>
      rw [hbuild] at houtcome
      exact houtcome.extended
    | (.error e, next) =>
      rw [hbuild] at houtcome
      obtain ⟨rfl, hmissing⟩ := houtcome
      cases e with
      | missingNode id => exact hmissing id rfl
      | noMatch _ _ _ => exact .nothing
      | unterminated _ _ => exact .nothing
      | internal _ => exact .nothing

theorem extended_of_run? {call : Call} (h : call.run? arena = some next) :
    arena.Extended call.target next := by
  have hspec := run?_spec arena call
  rw [h] at hspec
  exact hspec

end Call

namespace Arena

theorem Attached.of_runAll? {last : Arena} {calls : List Call} (h : arena.Attached)
    (hlast : arena.runAll? calls = some last) : last.Attached := by
  induction calls generalizing arena with
  | nil =>
    cases hlast
    exact h
  | cons call calls ih =>
    obtain ⟨next, hnext, hlast⟩ := Option.bind_eq_some_iff.1 hlast
    exact ih (h.extended (Call.extended_of_run? hnext)) hlast

theorem loopless_runAll?_iff {last : Arena} {calls : List Call}
    (h : arena.runAll? calls = some last) :
    last.Loopless ↔ arena.Loopless ∧ arena.Anchored calls := by
  induction calls generalizing arena with
  | nil =>
    cases h
    rw [Anchored, and_true]
  | cons call calls ih =>
    obtain ⟨next, hnext, hlast⟩ := Option.bind_eq_some_iff.1 h
    rw [ih hlast, (Call.extended_of_run? hnext).loopless_iff, Anchored, and_assoc]
    simp only [hnext, Option.mem_some_iff, forall_eq']

end Arena

/-- What completed calls make passes the integrity check, whatever their targets. But the walk
misses nodes as soon as a call names the first free position, where it completes and its node
becomes its own parent. -/
theorem visits_all_iff_anchored {calls : List Call} {arena : Arena}
    (h : Arena.empty.runAll? calls = some arena) :
    arena.validate = .ok () ∧
      (∃ order, arena.descendants? = some order ∧ order.Nodup ∧
        (order.Perm (List.range arena.size) ↔ Arena.empty.Anchored calls)) ∧
      (∀ call : Call, match call.run? arena with
        | none => arena.size ≤ call.target
        | some next => arena.Extended call.target next) ∧
      ∀ parent kind, (Call.attach parent kind).run? arena = none ↔ arena.size < parent := by
  have hattached : arena.Attached := Arena.Attached.empty.of_runAll? h
  have hempty : Arena.empty.Loopless := by
    intro id hid
    cases id <;> cases hid
  have hanchored : arena.Loopless ↔ Arena.empty.Anchored calls := by
    rw [Arena.loopless_runAll?_iff h, and_iff_right hempty]
  obtain ⟨order, horder, hnodup, hmem⟩ := hattached.linked.exists_descendants?
  refine ⟨hattached.linked.validate_eq_ok, ⟨order, horder, hnodup, ?_⟩, Call.run?_spec arena,
    Call.run?_attach_eq_none_iff arena⟩
  rw [← hanchored, ← hattached.forall_reachable_iff,
    List.perm_ext_iff_of_nodup hnodup List.nodup_range]
  simp only [hmem, List.mem_range]
  constructor
  · intro hall id hid
    exact (hall id).2 hid
  · intro hall id
    exact ⟨hattached.linked.lt_size, hall id⟩

/-- A function built from tokens that no pattern takes, and a node attached in its body. -/
def looseCalls : List Call :=
  [.build .functionDefinition looseTokens .start, .attach 1 .return_]

theorem visits_all_looseCalls :
    ∃ arena, Arena.empty.runAll? looseCalls = some arena ∧ arena.validate = .ok () ∧
      ∃ order, arena.descendants? = some order ∧ order.Perm (List.range arena.size) := by
  have hsome : (Arena.empty.runAll? looseCalls).isSome := by decide
  obtain ⟨arena, harena⟩ := Option.isSome_iff_exists.1 hsome
  obtain ⟨hvalid, ⟨order, horder, -, hperm⟩, -, -⟩ := visits_all_iff_anchored harena
  exact ⟨arena, harena, hvalid, order, horder, hperm.2 (by decide)⟩

/-- The first free position of the fresh program takes a node, which passes the check and is never
visited. -/
theorem attach_first_free :
    Arena.empty.get? 1 = none ∧
      ∃ arena, (Call.attach 1 .return_).run? .empty = some arena ∧ arena.validate = .ok () ∧
        arena.size = 2 ∧ arena.parent? 1 = some 1 ∧ arena.descendants? = some [0] := by
  have hattached : (Arena.empty.grow 1 .return_).Attached := .grow .empty (Nat.le_refl 1) .return_
  refine ⟨rfl, Arena.empty.grow 1 .return_, rfl, hattached.linked.validate_eq_ok, rfl, rfl, rfl⟩

end Declang
