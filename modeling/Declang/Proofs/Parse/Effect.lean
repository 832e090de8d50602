import Declang.Proofs.Arena.Attach
import Declang.Proofs.Parse.Build
namespace Declang

/-- What a build step can do when it succeeds. The cursor may be any position; the nodes are added
as far as it is no higher than the first free one. -/
inductive Built (arena : Arena) (position : Position) : Production → Position → Arena → Prop where
  | function (f : Function) (cursor : position.cursor = Arena.root)
    (location : position.location = .program) :
    Built arena position .functionDefinition (position.enter .function arena.size)
      (arena.grow position.cursor (.function f))
  | declaration (v : Variable) (bound : position.cursor ≤ arena.size) :
    Built arena position .variableDeclaration position
      (arena.grow position.cursor (.declaration v))
  | return_ (bound : position.cursor ≤ arena.size) :
    Built arena position .returnStatement position (arena.grow position.cursor .return_)
  | returned (kind : NodeKind) (bound : position.cursor ≤ arena.size) :
    Built arena position .returnStatement position
      ((arena.grow position.cursor .return_).grow arena.size kind)
  | close {parent : NodeId} {location : Location} {outer : List Location}
    (recorded : arena.parent? position.cursor = some parent)
    (entered : position.entered = location :: outer) :
    Built arena position .closeBrace ⟨parent, outer⟩ arena

/-- A build step either fails and leaves the arena alone, or does what it can do. It asks for a
missing node only where the cursor is none. -/
def Production.Outcome (production : Production) (arena : Arena) (position : Position) :
    Except ParseError Position × Arena → Prop
  | (.error e, arena') => arena' = arena ∧ ∀ id, e = .missingNode id → arena.size ≤ position.cursor
  | (.ok position', arena') => Built arena position production position' arena'

variable {arena : Arena} {position : Position} {tokens : List Token}

theorem outcome_of_error {production : Production} {step : Builder Position} {e : ParseError}
    (h : step arena = (.error e, arena))
    (he : ∀ id, e = .missingNode id → arena.size ≤ position.cursor) :
    production.Outcome arena position (step arena) := by
  rw [h]
  exact ⟨rfl, he⟩

theorem outcome_defect {production : Production} (d : Defect)
    (rest : PUnit → Builder Position) :
    production.Outcome arena position ((Builder.defect d >>= rest) arena) := by
  apply outcome_of_error (Builder.bind_eq_error rest rfl)
  intro id hid
  cases hid

theorem outcome_read {α : Type} {production : Production} {reading : Except Defect α}
    {rest : α → Builder Position}
    (h : ∀ a, production.Outcome arena position (rest a arena)) :
    production.Outcome arena position ((Builder.read reading >>= rest) arena) := by
  cases reading with
  | error d =>
    apply outcome_of_error (Builder.bind_eq_error rest rfl)
    intro id hid
    cases hid
  | ok a =>
    rw [Builder.bind_eq rest (Builder.read_eq rfl arena)]
    exact h a

theorem outcome_attach {production : Production} {kind : NodeKind}
    {rest : NodeId → Builder Position}
    (h : position.cursor ≤ arena.size →
      production.Outcome arena position (rest arena.size (arena.grow position.cursor kind))) :
    production.Outcome arena position
      ((Builder.attach position.cursor kind >>= rest) arena) := by
  by_cases hbound : position.cursor ≤ arena.size
  · rw [Builder.bind_eq rest (Builder.attach_eq hbound kind)]
    exact h hbound
  · have hmissing : Builder.attach position.cursor kind arena =
        (.error (.missingNode position.cursor), arena) := by
      rw [Builder.attach, Builder.bind_eq _
        (rfl : (get : Builder Arena) arena = (.ok arena, arena)), Arena.attach?_eq, if_neg hbound]
      rfl
    apply outcome_of_error (Builder.bind_eq_error rest hmissing)
    intro id _
    exact Nat.le_of_not_le hbound

theorem outcome_parentOf {production : Production} {rest : Option NodeId → Builder Position}
    (h : ∀ node, arena.get? position.cursor = some node →
      production.Outcome arena position (rest node.parent arena)) :
    production.Outcome arena position ((Builder.parentOf position.cursor >>= rest) arena) := by
  cases hnode : arena.get? position.cursor with
  | none =>
    have hmissing : Builder.parentOf position.cursor arena =
        (.error (.missingNode position.cursor), arena) := by
      rw [Builder.parentOf, Builder.bind_eq _
        (rfl : (get : Builder Arena) arena = (.ok arena, arena)), hnode]
      rfl
    apply outcome_of_error (Builder.bind_eq_error rest hmissing)
    intro id _
    exact Array.getElem?_eq_none_iff.1 hnode
  | some node =>
    rw [Builder.bind_eq rest (Builder.parentOf_eq hnode)]
    exact h node hnode

theorem build_outcome (production : Production) (tokens : List Token) (position : Position)
    (arena : Arena) :
    production.Outcome arena position (build production tokens position arena) := by
  cases production with
  | functionDefinition =>
    simp only [build]
    split
    · exact outcome_defect _ _
    · next hplace =>
      rw [not_or, not_not, not_not] at hplace
      apply outcome_read
      intro f
      apply outcome_attach
      intro _
      exact .function f hplace.1 hplace.2
  | variableDeclaration =>
    simp only [build, Builder.discard_bind]
    apply outcome_read
    intro v
    apply outcome_attach
    intro hbound
    exact .declaration v hbound
  | returnStatement =>
    simp only [build, Builder.discard_bind]
    split
    · exact outcome_defect _ _
    · apply outcome_read
      intro value
      apply outcome_attach
      intro hbound
      cases value with
      | none => exact .return_ hbound
      | some kind =>
        have hid := arena.size_le_size_grow position.cursor .return_
        simp only
        rw [Builder.bind_eq _ (Builder.attach_eq hid kind)]
        exact .returned kind hbound
  | closeBrace =>
    simp only [build, Builder.discard_bind]
    apply outcome_read
    intro _
    split
    · exact outcome_defect _ _
    · next hlocation =>
      apply outcome_parentOf
      intro node hnode
      cases hparent : node.parent with
      | none =>
        apply outcome_of_error rfl
        intro id hid
        cases hid
      | some parent =>
        obtain ⟨cursor, _ | ⟨location, outer⟩⟩ := position
        · exact absurd rfl hlocation
        · refine .close ?_ rfl
          rw [Arena.parent?_eq hnode, hparent]

/-- How many nodes a production may add. -/
def Production.growth : Production → List Nat
  | functionDefinition | variableDeclaration => [1]
  | returnStatement => [1, 2]
  | closeBrace => [0]

/-- Where a successful step of the production leads: into the new node, nowhere, or out of the
innermost location to the parent of the cursor. -/
def Production.Leads (production : Production) (arena : Arena) (position position' : Position) :
    Prop :=
  match production with
  | functionDefinition =>
    position'.locations = position.locations ++ [.function] ∧ position'.cursor = arena.size
  | variableDeclaration | returnStatement => position' = position
  | closeBrace =>
    (∃ location, position.locations = position'.locations ++ [location]) ∧
      arena.parent? position.cursor = some position'.cursor

/-- All that a successful step changes: it adds nodes behind the earlier ones, the first of them, if
there is one, at the end of the cursor's list. -/
structure Framed (production : Production) (arena arena' : Arena) (position position' : Position) :
    Prop where
  kept : arena.Kept arena'
  listed : arena'.children position.cursor =
    arena.children position.cursor ++ if arena.size < arena'.size then [arena.size] else []
  others {id : NodeId} (present : id < arena.size) (other : id ≠ position.cursor) :
    arena'.children id = arena.children id
  added : ∃ n ∈ production.growth, arena'.size = arena.size + n
  leads : production.Leads arena position position'

theorem framed_grow {production : Production} {position' : Position}
    (hcursor : position.cursor < arena.size) (hgrowth : 1 ∈ production.growth)
    (hleads : production.Leads arena position position') (kind : NodeKind) :
    Framed production arena (arena.grow position.cursor kind) position position' := by
  constructor
  · exact .grow arena position.cursor kind
  · rw [Arena.children_grow (Nat.le_of_lt hcursor), if_pos rfl, Arena.size_grow,
      if_pos (Nat.lt_succ_self _)]
  · intro id _ hne
    exact Arena.children_grow_of_ne (Nat.le_of_lt hcursor) hne kind
  · exact ⟨1, hgrowth, arena.size_grow position.cursor kind⟩
  · exact hleads

theorem framed_grow_grow (hcursor : position.cursor < arena.size) (kind value : NodeKind) :
    Framed .returnStatement arena ((arena.grow position.cursor kind).grow arena.size value)
      position position := by
  have hbound := arena.size_le_size_grow position.cursor kind
  have hold {id : NodeId} (hid : id < arena.size) :
      ((arena.grow position.cursor kind).grow arena.size value).children id =
        (arena.grow position.cursor kind).children id :=
    Arena.children_grow_of_ne hbound (Nat.ne_of_lt hid) value
  have hsize : ((arena.grow position.cursor kind).grow arena.size value).size = arena.size + 2 := by
    rw [Arena.size_grow, Arena.size_grow]
  constructor
  · exact (Arena.Kept.grow arena position.cursor kind).trans (.grow _ arena.size value)
  · rw [hold hcursor, Arena.children_grow (Nat.le_of_lt hcursor), if_pos rfl, hsize,
      if_pos (Nat.lt_add_of_pos_right Nat.two_pos)]
  · intro id hid hne
    rw [hold hid]
    exact Arena.children_grow_of_ne (Nat.le_of_lt hcursor) hne kind
  · exact ⟨2, by decide, hsize⟩
  · rfl

namespace Position

theorem locations_of_entered {position : Position} {location : Location} {outer : List Location}
    (h : position.entered = location :: outer) (cursor : NodeId) :
    position.locations = (Position.mk cursor outer).locations ++ [location] := by
  rw [locations, h, List.reverse_cons]
  rfl

theorem locations_enter (position : Position) (location : Location) (cursor : NodeId) :
    (position.enter location cursor).locations = position.locations ++ [location] :=
  locations_of_entered rfl position.cursor

end Position

theorem Built.framed {production : Production} {arena' : Arena} {position' : Position}
    (h : Built arena position production position' arena') (hcursor : position.cursor < arena.size) :
    Framed production arena arena' position position' := by
  cases h with
  | function f _ _ =>
    apply framed_grow hcursor (List.mem_cons_self ..)
    exact ⟨position.locations_enter .function arena.size, rfl⟩
  | declaration v _ =>
    apply framed_grow hcursor (List.mem_cons_self ..)
    rfl
  | return_ _ =>
    apply framed_grow hcursor (List.mem_cons_self ..)
    rfl
  | returned kind _ => exact framed_grow_grow hcursor .return_ kind
  | @close parent location outer hparent hentered =>
    constructor
    · exact .refl arena
    · rw [if_neg (Nat.lt_irrefl _), List.append_nil]
    · intro id _ _
      rfl
    · exact ⟨0, List.mem_cons_self .., rfl⟩
    · exact ⟨⟨location, Position.locations_of_entered hentered parent⟩, hparent⟩

/-- A build step at a cursor in the arena is all or nothing, whatever tokens it is given: it fails
with the arena as it was and asks for no missing node, or it changes what its production may
change. -/
theorem build_frame {position : Position} {arena : Arena} (hcursor : position.cursor < arena.size)
    (production : Production) (tokens : List Token) :
    match build production tokens position arena with
    | (.error e, arena') => arena' = arena ∧ ∀ id, e ≠ .missingNode id
    | (.ok position', arena') => Framed production arena arena' position position' := by
  have houtcome := build_outcome production tokens position arena
  match hbuild : build production tokens position arena with
  | (.error e, arena') =>
    rw [hbuild] at houtcome
    apply And.intro houtcome.1
    intro id hid
    exact Nat.not_le_of_lt hcursor (houtcome.2 id hid)
  | (.ok position', arena') =>
    rw [hbuild] at houtcome
    exact houtcome.framed hcursor

/-- Tokens that no pattern takes, and that have what a function header needs at each place where a
step looks for it. -/
def looseTokens : List Token :=
  let spellings : List (TokenKind × String) :=
    [(.typeKeyword, "int"), (.identifier, "f"), (.comma, ","), (.typeKeyword, "byte"),
      (.identifier, "a"), (.comma, ","), (.semicolon, ";")]
  spellings.filterMap fun (kind, text) => (Token.make kind text 1).toOption

theorem build_frame_looseTokens :
    Position.start.cursor < Arena.empty.size ∧
      Framed .functionDefinition .empty
        (Arena.empty.grow Arena.root (.function ⟨"int", "f", [⟨"byte", "a"⟩]⟩)) .start
        ⟨1, [.function]⟩ := by
  have hcursor : Position.start.cursor < Arena.empty.size := by decide
  have hread : readFunction looseTokens = .ok ⟨"int", "f", [⟨"byte", "a"⟩]⟩ := by decide
  have hbuild := @build_function .start looseTokens _ rfl rfl hread .empty
  have hframe := build_frame hcursor .functionDefinition looseTokens
  rw [hbuild] at hframe
  exact ⟨hcursor, hframe⟩

end Declang
