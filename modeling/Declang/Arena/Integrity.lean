import Declang.Arena
namespace Declang

/-- A broken link between nodes. -/
inductive IntegrityError where
  | rootHasParent (parent : NodeId)
  | danglingChild (parent child : NodeId)
  | parentMismatch (parent child : NodeId) (recorded : Option NodeId)
  | sharedChild (child : NodeId)
  deriving DecidableEq, Repr

def IntegrityError.message : IntegrityError → String
  | rootHasParent parent => "Tree corrupted: root records parent " ++ NodeId.display parent
  | danglingChild parent child =>
    "Tree corrupted: " ++ NodeId.display parent ++ " lists missing child " ++ NodeId.display child
  | parentMismatch parent child (some recorded) =>
    "Tree corrupted: " ++ NodeId.display child ++ " is a child of " ++ NodeId.display parent
      ++ " but records parent " ++ NodeId.display recorded
  | parentMismatch parent child none =>
    "Tree corrupted: " ++ NodeId.display child ++ " is a child of " ++ NodeId.display parent
      ++ " but records no parent"
  | sharedChild child =>
    "Tree corrupted: " ++ NodeId.display child ++ " is reachable more than once"

namespace Arena

/-- Marks the children of `parent` as seen. Each must be in the arena, point back at `parent`, and
not have been seen before. -/
def markChildren (arena : Arena) (parent : NodeId) :
    List NodeId → Vector Bool arena.size → Except IntegrityError (Vector Bool arena.size)
  | [], seen => .ok seen
  | child :: children, seen =>
    if h : child < arena.size then
      let recorded := arena.nodes[child].parent
      if recorded ≠ some parent then .error (.parentMismatch parent child recorded)
      else if seen[child] then .error (.sharedChild child)
      else markChildren arena parent children (seen.set child true)
    else .error (.danglingChild parent child)

/-- Marking `n` children leaves `n` fewer nodes unseen. -/
theorem markChildren_count {arena : Arena} {parent : NodeId} {children : List NodeId}
    {seen marked : Vector Bool arena.size}
    (h : arena.markChildren parent children seen = .ok marked) :
    marked.count false + children.length = seen.count false := by
  induction children generalizing seen with
  | nil =>
    cases h
    rfl
  | cons child children ih =>
    rw [markChildren] at h
    split at h
    case isFalse => cases h
    next hlt =>
    simp only at h
    split at h
    case isTrue => cases h
    split at h
    case isTrue => cases h
    next hunseen =>
    have hcount := ih h
    have hpos : 0 < seen.count false := by
      rw [Vector.count_pos_iff]
      exact Vector.mem_of_getElem (Bool.eq_false_iff.2 hunseen)
    rw [Vector.count_set] at hcount
    simp only [Bool.eq_false_iff.2 hunseen, beq_self_eq_true, if_true] at hcount
    simp only [List.length_cons]
    simp at hcount
    omega

/-- Visits the pending nodes, the most recently found first. -/
def scan (arena : Arena) (seen : Vector Bool arena.size) :
    List NodeId → Except IntegrityError Unit
  | [] => .ok ()
  | id :: pending =>
    match _hmark : arena.markChildren id (arena.children id) seen with
    | .error e => .error e
    | .ok seen => arena.scan seen ((arena.children id).reverse ++ pending)
termination_by pending => seen.count false + pending.length
decreasing_by
  have := markChildren_count (by assumption)
  simp only [List.length_append, List.length_reverse, List.length_cons]
  omega

/-- Checks that the nodes reachable from the root form a tree. -/
def validate (arena : Arena) : Except IntegrityError Unit :=
  match (arena.get? root).bind Node.parent with
  | some parent => .error (.rootHasParent parent)
  | none => arena.scan ((Vector.replicate arena.size false).set 0 true arena.nonempty) [root]

end Arena

end Declang
