import Declang.Proofs.Parse.Effect
import Declang.Proofs.Parse.Session
namespace Declang

/-- What can be done to a parse, at any point and with any arguments. -/
inductive Move where
  | enter (location : Location) (cursor : NodeId)
  | leave (cursor : NodeId)
  | build (production : Production) (tokens : List Token)

def Move.step (move : Move) (position : Position) : Builder Position :=
  match move with
  | enter location cursor => return position.enter location cursor
  | leave cursor => position.leave cursor
  | build production tokens => Declang.build production tokens position

/-- A change to a plain stack of locations, the outermost first. -/
inductive Shift where
  | push (location : Location)
  | pop
  | keep

namespace Shift

def isPush : Shift → Bool
  | push _ => true
  | _ => false

def isPop : Shift → Bool
  | pop => true
  | _ => false

/-- The stack after a change. Any location may be at the bottom, but it is never popped. -/
def restack? (stack : List Location) : Shift → Option (List Location)
  | push location => some (stack ++ [location])
  | pop => if stack.length ≤ 1 then none else some stack.dropLast
  | keep => some stack

end Shift

/-- A move that was made, and whether it succeeded. -/
structure Entry where
  move : Move
  succeeded : Bool

/-- Entering a location pushes it, and so does a function that is built. Leaving a location and
building a closing brace pop one when they succeed. -/
def Entry.shift : Entry → Shift
  | ⟨.enter location _, _⟩ => .push location
  | ⟨.build .functionDefinition _, true⟩ => .push .function
  | ⟨.leave _, true⟩ | ⟨.build .closeBrace _, true⟩ => .pop
  | _ => .keep

/-- The moves that were made, and where they led. -/
structure Run where
  log : List Entry
  session : Session

namespace Session

/-- Whether a move succeeds, and the session after it. A move that fails leaves the position as it
was. There is nothing after one that asks for a missing node. -/
def make? (session : Session) (move : Move) : Option (Bool × Session) :=
  match move.step session.position session.arena with
  | (.ok position, arena) => some (true, ⟨position, arena⟩)
  | (.error (.missingNode _), _) => none
  | (.error _, arena) => some (false, ⟨session.position, arena⟩)

/-- Makes the moves one after another, up to one that asks for a missing node. -/
def run (session : Session) : List Move → Run
  | [] => ⟨[], session⟩
  | move :: moves =>
    match session.make? move with
    | none => ⟨[], session⟩
    | some (succeeded, next) =>
      let later := next.run moves
      ⟨⟨move, succeeded⟩ :: later.log, later.session⟩

end Session

/-- The stack that a log makes of this one. -/
def replay? (log : List Entry) (stack : List Location) : Option (List Location) :=
  (log.map Entry.shift).foldlM Shift.restack? stack

/-- What a plain stack says at the end of the tokens, if there is anything on it. -/
def finishStack? : List Location → Option (Except ParseError Unit)
  | [] => none
  | [.program] => some (.ok ())
  | outermost :: inner => some (.error (.unterminated (inner.getLastD outermost) inner.length))

/-- The open locations of a session are a stack that its moves have pushed and popped, above a
program level that stays at the bottom. -/
structure Run.Nested (run : Run) : Prop where
  bottom : run.session.position.locations.head? = some .program
  top : run.session.position.locations.getLast? = some run.session.position.location
  replayed : replay? run.log [.program] = some run.session.position.locations
  depth : run.session.position.depth + run.log.countP (·.shift.isPop) =
    1 + run.log.countP (·.shift.isPush)
  leave (cursor : NodeId) :
    (∃ e, run.session.position.leave cursor = .error e) ↔ run.session.position.depth = 1
  finish : run.session.position.finish =
    if run.session.position.depth = 1 then .ok ()
    else .error (.unterminated run.session.position.location (run.session.position.depth - 1))
  finished : finishStack? run.session.position.locations = some run.session.position.finish

/-- The moves were all made, or those before one that asks for a missing node. -/
def Run.Exhausts (run : Run) (moves : List Move) : Prop :=
  run.log.map Entry.move = moves ∨
    ∃ move later, moves = run.log.map Entry.move ++ move :: later ∧
      run.session.make? move = none ∧ run.session.arena.size ≤ run.session.position.cursor

theorem finishStack?_concat {stack : List Location} (hne : stack ≠ []) (location : Location) :
    finishStack? (stack ++ [location]) = some (.error (.unterminated location stack.length)) := by
  cases stack with
  | nil => exact absurd rfl hne
  | cons outermost outer =>
    have hinner : outer ++ [location] ≠ [] := List.append_ne_nil_of_right_ne_nil _ nofun
    rw [List.cons_append, finishStack?, List.getLastD_concat, List.length_append]
    · rfl
    · intro _
      exact hinner

namespace Position

theorem getLast?_locations (position : Position) :
    position.locations.getLast? = some position.location := by
  obtain ⟨cursor, _ | ⟨location, outer⟩⟩ := position
  · rfl
  · rw [locations_of_entered rfl cursor, List.getLast?_concat]
    rfl

theorem depth_eq (position : Position) : position.depth = position.entered.length + 1 := by
  rw [depth, locations, List.length_cons, List.length_reverse]

theorem leave_eq_error_iff (position : Position) (cursor : NodeId) :
    (∃ e, position.leave cursor = .error e) ↔ position.depth = 1 := by
  obtain ⟨_, _ | ⟨location, outer⟩⟩ := position
  · exact iff_of_true ⟨_, rfl⟩ rfl
  · rw [depth_eq, List.length_cons]
    apply iff_of_false
    · rintro ⟨e, he⟩
      cases he
    · exact Nat.succ_succ_ne_one _

theorem finish_eq (position : Position) :
    position.finish = if position.depth = 1 then .ok ()
      else .error (.unterminated position.location (position.depth - 1)) := by
  obtain ⟨_, _ | ⟨location, outer⟩⟩ := position
  · rfl
  · rw [depth_eq, List.length_cons, if_neg nofun]
    rfl

theorem finishStack?_locations (position : Position) :
    finishStack? position.locations = some position.finish := by
  obtain ⟨cursor, _ | ⟨location, outer⟩⟩ := position
  · rfl
  · have hne : (Position.mk cursor outer).locations ≠ [] := List.cons_ne_nil _ _
    have hlength : (Position.mk cursor outer).locations.length = outer.length + 1 :=
      depth_eq ⟨cursor, outer⟩
    rw [locations_of_entered rfl cursor, finishStack?_concat hne, hlength]
    rfl

end Position

namespace Shift

variable {shift : Shift} {stack stack' : List Location}

theorem restack?_pop_eq_some_iff :
    pop.restack? stack = some stack' ↔ stack' ≠ [] ∧ ∃ location, stack = stack' ++ [location] := by
  rw [restack?]
  constructor
  · intro h
    split_ifs at h with hlength
    cases h
    have hne : stack ≠ [] := by
      rintro rfl
      exact hlength (Nat.zero_le 1)
    refine ⟨?_, stack.getLast hne, (List.dropLast_concat_getLast hne).symm⟩
    rw [← List.length_pos_iff, List.length_dropLast]
    omega
  · rintro ⟨hne, location, rfl⟩
    have hpos := List.length_pos_iff.2 hne
    rw [List.length_append, if_neg (by simp; omega), List.dropLast_concat]

theorem head?_of_restack? {location : Location} (h : shift.restack? stack = some stack')
    (hbottom : stack.head? = some location) : stack'.head? = some location := by
  cases shift with
  | push inner =>
    cases h
    rw [List.head?_append, hbottom, Option.some_or]
  | pop =>
    obtain ⟨hne, inner, rfl⟩ := restack?_pop_eq_some_iff.1 h
    rwa [List.head?_append_of_ne_nil _ hne] at hbottom
  | keep =>
    cases h
    exact hbottom

theorem length_of_restack? (h : shift.restack? stack = some stack') :
    stack'.length + (if shift.isPop then 1 else 0) =
      stack.length + if shift.isPush then 1 else 0 := by
  cases shift with
  | push inner =>
    cases h
    exact List.length_append
  | pop =>
    obtain ⟨-, inner, rfl⟩ := restack?_pop_eq_some_iff.1 h
    rw [List.length_append]
    rfl
  | keep =>
    cases h
    rfl

end Shift

theorem Position.restack?_pop_locations {position : Position} {location : Location}
    {outer : List Location} (h : position.entered = location :: outer) (cursor : NodeId) :
    Shift.pop.restack? position.locations = some (Position.mk cursor outer).locations :=
  Shift.restack?_pop_eq_some_iff.2 ⟨List.cons_ne_nil _ _, location, locations_of_entered h cursor⟩

section Replay

variable {entry : Entry} {log : List Entry} {stack stack' : List Location}

theorem replay?_cons :
    replay? (entry :: log) stack = (entry.shift.restack? stack).bind (replay? log) := by
  rw [replay?, List.map_cons, List.foldlM_cons]
  rfl

theorem head?_of_replay? {location : Location} (h : replay? log stack = some stack')
    (hbottom : stack.head? = some location) : stack'.head? = some location := by
  induction log generalizing stack with
  | nil =>
    cases h
    exact hbottom
  | cons entry log ih =>
    rw [replay?_cons] at h
    obtain ⟨next, hnext, hlater⟩ := Option.bind_eq_some_iff.1 h
    exact ih hlater (Shift.head?_of_restack? hnext hbottom)

theorem length_of_replay? (h : replay? log stack = some stack') :
    stack'.length + log.countP (·.shift.isPop) = stack.length + log.countP (·.shift.isPush) := by
  induction log generalizing stack with
  | nil =>
    cases h
    rfl
  | cons entry log ih =>
    rw [replay?_cons] at h
    obtain ⟨next, hnext, hlater⟩ := Option.bind_eq_some_iff.1 h
    have hone := Shift.length_of_restack? hnext
    have hmore := ih hlater
    rw [List.countP_cons, List.countP_cons]
    omega

end Replay

theorem Built.restack?_shift {arena arena' : Arena} {position position' : Position}
    {production : Production} (h : Built arena position production position' arena')
    (tokens : List Token) :
    (Entry.mk (.build production tokens) true).shift.restack? position.locations =
      some position'.locations := by
  cases h with
  | function f _ _ => exact congrArg some (position.locations_enter .function arena.size).symm
  | declaration v _ => rfl
  | return_ _ => rfl
  | returned kind _ => rfl
  | close _ hentered => exact Position.restack?_pop_locations hentered _

namespace Session

theorem make?_spec (session : Session) (move : Move) :
    match session.make? move with
    | none => session.arena.size ≤ session.position.cursor
    | some (succeeded, next) =>
      (Entry.mk move succeeded).shift.restack? session.position.locations =
          some next.position.locations ∧
        (succeeded = false → next = session) := by
  obtain ⟨position, arena⟩ := session
  cases move with
  | enter location cursor =>
    exact ⟨congrArg some (position.locations_enter location cursor).symm, nofun⟩
  | leave cursor =>
    obtain ⟨current, _ | ⟨location, outer⟩⟩ := position
    · exact ⟨rfl, fun _ => rfl⟩
    · exact ⟨Position.restack?_pop_locations rfl cursor, nofun⟩
  | build production tokens =>
    have houtcome := build_outcome production tokens position arena
    rw [make?, Move.step]
    match hbuild : Declang.build production tokens position arena with
    | (.ok position', arena') =>
      rw [hbuild] at houtcome
      exact ⟨houtcome.restack?_shift tokens, nofun⟩
    | (.error e, arena') =>
      rw [hbuild] at houtcome
      obtain ⟨rfl, hmissing⟩ := houtcome
      have hkept : (Entry.mk (.build production tokens) false).shift.restack? position.locations =
          some position.locations := by
        cases production <;> rfl
      cases e with
      | missingNode id => exact hmissing id rfl
      | noMatch _ _ _ => exact ⟨hkept, fun _ => rfl⟩
      | unterminated _ _ => exact ⟨hkept, fun _ => rfl⟩
      | internal _ => exact ⟨hkept, fun _ => rfl⟩

theorem run_cons_of_none {session : Session} {move : Move} (h : session.make? move = none)
    (moves : List Move) : session.run (move :: moves) = ⟨[], session⟩ := by
  rw [run, h]

theorem run_cons_of_some {session next : Session} {move : Move} {succeeded : Bool}
    (h : session.make? move = some (succeeded, next)) (moves : List Move) :
    session.run (move :: moves) =
      ⟨⟨move, succeeded⟩ :: (next.run moves).log, (next.run moves).session⟩ := by
  rw [run, h]

theorem replay?_run (session : Session) (moves : List Move) :
    replay? (session.run moves).log session.position.locations =
      some (session.run moves).session.position.locations := by
  induction moves generalizing session with
  | nil => rfl
  | cons move moves ih =>
    have hspec := session.make?_spec move
    match hmake : session.make? move with
    | none =>
      rw [run_cons_of_none hmake]
      rfl
    | some (succeeded, next) =>
      rw [hmake] at hspec
      rw [run_cons_of_some hmake, replay?_cons, hspec.1, Option.bind_some, ih]

theorem exhausts_run (session : Session) (moves : List Move) :
    (session.run moves).Exhausts moves := by
  induction moves generalizing session with
  | nil => exact .inl rfl
  | cons move moves ih =>
    have hspec := session.make?_spec move
    match hmake : session.make? move with
    | none =>
      rw [hmake] at hspec
      rw [run_cons_of_none hmake]
      exact .inr ⟨move, moves, rfl, hmake, hspec⟩
    | some (succeeded, next) =>
      rw [run_cons_of_some hmake]
      obtain hall | ⟨stop, later, hmoves, hstop⟩ := ih next
      · exact .inl (congrArg (move :: ·) hall)
      · exact .inr ⟨stop, later, congrArg (move :: ·) hmoves, hstop⟩

end Session

/-- Whatever is done to a fresh parse, its open locations are a stack above the program level, which
nothing pops. A move that fails changes nothing, and only one that asks for a missing node ends the
run. -/
theorem nested_run (moves : List Move) :
    (Session.start.run moves).Nested ∧ (Session.start.run moves).Exhausts moves ∧
      ∀ move next, (Session.start.run moves).session.make? move = some (false, next) →
        next = (Session.start.run moves).session := by
  have hreplay := Session.start.replay?_run moves
  refine ⟨?_, Session.start.exhausts_run moves, ?_⟩
  · constructor
    · exact head?_of_replay? hreplay rfl
    · exact Position.getLast?_locations _
    · exact hreplay
    · exact length_of_replay? hreplay
    · exact Position.leave_eq_error_iff _
    · exact Position.finish_eq _
    · exact Position.finishStack?_locations _
  · intro move next hmake
    have hspec := (Session.start.run moves).session.make?_spec move
    rw [hmake] at hspec
    exact hspec.2 rfl

-- The program level is entered once more, and a closing brace cannot leave it.
example :
    let brace : Token := ⟨.closeBrace, "\x7d", 1, none, rfl⟩
    let run := Session.start.run [.leave 0, .enter .program 0, .build .closeBrace [brace],
      .build .functionDefinition looseTokens, .build .closeBrace [brace], .leave 0,
      .enter .function 9, .build .closeBrace [brace], .leave 0]
    run.log.map Entry.succeeded = [false, true, false, true, true, true, true] ∧
      run.session.position.locations = [.program, .function] := by
  decide

end Declang
