import Declang.Proofs.Parse.Safety
namespace Declang

/-- A parse that is fed one piece after another. -/
structure Session where
  position : Position
  arena : Arena

namespace Session

def start : Session := ⟨.start, .empty⟩

/-- Builds the production that matches at the start of a piece. A piece that fails leaves the
position as it was. -/
def feed (session : Session) (piece : List Token) : Session :=
  match Declang.feed piece session.position session.arena with
  | (.ok (_, _, position), arena) => ⟨position, arena⟩
  | (.error _, arena) => ⟨session.position, arena⟩

def feedAll (session : Session) (pieces : List (List Token)) : Session :=
  pieces.foldl feed session

/-- At program level the cursor is the root. In a body it is the function that the root lists last. -/
def Coupled (session : Session) : Prop :=
  (session.position.cursor = Arena.root ∧ session.position.locations = [.program]) ∨
    session.position.locations = [.program, .function] ∧
      (session.arena.children Arena.root).getLast? = some session.position.cursor ∧
      ∃ f children, session.arena.get? session.position.cursor =
        some ⟨.function f, some Arena.root, children⟩

def ofProgress (p : Progress) : Session := ⟨p.position, p.arena⟩

theorem exists_feed_eq (p : Progress) (piece : List Token) :
    ∃ p' : Progress, (ofProgress p).feed piece = ofProgress p' := by
  cases hfind : Production.find? p.position.location (piece.map Token.kind) with
  | none =>
    have hfeed : Declang.feed piece p.position p.arena =
        (.error (.mismatch p.position.location piece), p.arena) := by
      rw [Declang.feed, hfind]
      rfl
    refine ⟨p, ?_⟩
    simp only [feed, ofProgress, hfeed]
  | some found =>
    obtain ⟨production, n⟩ := found
    obtain ⟨p', hbuild⟩ := Progress.build_of_find? hfind
    have hfeed : Declang.feed piece p.position p.arena =
        (.ok (production, n, p'.position), p'.arena) := by
      rw [Declang.feed, hfind]
      simp only
      rw [Builder.bind_eq _ hbuild]
      rfl
    refine ⟨p', ?_⟩
    simp only [feed, ofProgress, hfeed]

theorem exists_feedAll_eq (p : Progress) (pieces : List (List Token)) :
    ∃ p' : Progress, (ofProgress p).feedAll pieces = ofProgress p' := by
  induction pieces generalizing p with
  | nil => exact ⟨p, rfl⟩
  | cons piece pieces ih =>
    obtain ⟨next, hnext⟩ := exists_feed_eq p piece
    rw [feedAll, List.foldl_cons, hnext]
    exact ih next

theorem coupled_ofProgress (p : Progress) : (ofProgress p).Coupled := by
  cases p with
  | top done => exact .inl ⟨rfl, rfl⟩
  | inside done f body =>
    right
    have hroot : (Progress.inside done f body).arena.children Arena.root =
        Tree.starts 1 (done.map Item.tree ++ [.node (.function f) (body.map Statement.tree)]) := by
      rw [Progress.arena_inside]
      exact Arena.children_eq (Arena.get?_ofTree .whole .program _)
    have hfunction := Arena.get?_ofTree (Progress.opens_function done) (.function f)
      (body.map Statement.tree)
    rw [← Progress.arena_inside] at hfunction
    refine ⟨rfl, ?_, f, _, hfunction⟩
    rw [ofProgress, hroot, Tree.starts_append, Tree.starts, Tree.starts, List.getLast?_concat]
    rfl

end Session

/-- Whatever pieces a parse is fed, at every point the cursor, the open locations and the arena
belong together. -/
theorem coupled_feedAll (pieces : List (List Token)) :
    (Session.start.feedAll pieces).Coupled ∧
      (Session.start.feedAll pieces).arena.validate = .ok () := by
  obtain ⟨p, hp⟩ := Session.exists_feedAll_eq (.top []) pieces
  change Session.start.feedAll pieces = _ at hp
  rw [hp]
  exact ⟨Session.coupled_ofProgress p, p.linked.validate_eq_ok⟩

end Declang
