import OttiliCoder.Library.CodePoints

/-! Regular expressions of the host language with the flag `u`, given by their terms and matched by trying one
way after the other. Only single code points are repeated, and no group is inside another. -/

namespace Host

/-- A place in a text, and what the groups of a pattern have captured on the way to it. -/
structure Place where
  before : Option JsString
  behind : List JsString
  captured : List JsString := []

/-- What is read from one place to another. -/
def Place.textTo (place stop : Place) : JsString := (place.behind.take (place.behind.length - stop.behind.length)).flatten

inductive Pattern where
  /-- `^` -/
  | start
  /-- `\b`, between a code point of the class and one that is not. -/
  | boundary (isWord : JsString → Bool)
  | literal (text : String)
  | once (accepts : JsString → Bool)
  /-- `*`, `+`, and with `lazily` `*?` and `+?`. -/
  | repeated (least : Nat) (lazily : Bool) (accepts : JsString → Bool)
  /-- `(?:...)?` -/
  | optional (pattern : Pattern)
  /-- `...|...` -/
  | either (first second : Pattern)
  /-- A group that captures. One that does not take part captures nothing. -/
  | group (pattern : Pattern)
  | andThen (first second : Pattern)

namespace Pattern

instance : Append Pattern := ⟨andThen⟩

/-- Whether a run of code points goes on is tried before it stops, and lazily after. -/
def runRepeated (lazily : Bool) (accepts : JsString → Bool) (next : Place → Option Place) (captured : List JsString) :
    Nat → Option JsString → List JsString → Option Place
  | least, before, [] => if least = 0 then next ⟨before, [], captured⟩ else none
  | least, before, point :: behind =>
    let stops := fun (_ : Unit) => if least = 0 then next ⟨before, point :: behind, captured⟩ else none
    let goesOn := fun (_ : Unit) =>
      if accepts point then runRepeated lazily accepts next captured (least - 1) (some point) behind else none
    if lazily then Option.orElse (stops ()) goesOn else Option.orElse (goesOn ()) stops

/-- The first way in which the pattern matches at a place and the rest behind it. -/
def run : Pattern → (Place → Option Place) → Place → Option Place
  | start, next, place => if place.before = none then next place else none
  | boundary isWord, next, place => if place.before.any isWord != place.behind.head?.any isWord then next place else none
  | literal text, next, place =>
    let points := codePoints (utf16 text)
    if points.isPrefixOf place.behind then
      next { place with before := points.getLast?.or place.before, behind := place.behind.drop points.length }
    else none
  | once accepts, next, place =>
    match place.behind with
    | [] => none
    | point :: behind => if accepts point then next { place with before := some point, behind } else none
  | repeated least lazily accepts, next, place => runRepeated lazily accepts next place.captured least place.before place.behind
  | optional pattern, next, place => Option.orElse (run pattern next place) fun _ => next place
  | either first second, next, place => Option.orElse (run first next place) fun _ => run second next place
  | group pattern, next, place =>
    run pattern (fun stop => next { stop with captured := stop.captured ++ [place.textTo stop] }) place
  | andThen first second, next, place => run first (fun middle => run second next middle) place

/-- A match: its text, what its groups have captured, and the place where it ends. -/
structure Match where
  text : JsString
  groups : List JsString
  stop : Place

/-- The first match at a place or behind it. -/
def search (pattern : Pattern) : Option JsString → List JsString → Option Match
  | before, [] => (pattern.run some ⟨before, [], []⟩).map fun stop => ⟨[], stop.captured, stop⟩
  | before, point :: behind =>
    let place : Place := ⟨before, point :: behind, []⟩
    match pattern.run some place with
    | some stop => some ⟨place.textTo stop, stop.captured, stop⟩
    | none => search pattern (some point) behind

/-- `text.match(pattern)`. -/
def matchFirst (pattern : Pattern) (text : JsString) : Option Match := pattern.search none (codePoints text)

/-- The matches from a place on, each behind the one before it; an empty one moves on by a code point. -/
def searchAll (pattern : Pattern) : Nat → Option JsString → List JsString → List Match
  | 0, _, _ => []
  | fuel + 1, before, behind =>
    match pattern.search before behind with
    | none => []
    | some found =>
      if found.text ≠ [] then found :: searchAll pattern fuel found.stop.before found.stop.behind
      else
        match found.stop.behind with
        | [] => [found]
        | point :: rest => found :: searchAll pattern fuel (some point) rest

/-- `text.matchAll(pattern)`. There is at most one match at each place. -/
def matchAll (pattern : Pattern) (text : JsString) : List Match :=
  let points := codePoints text
  pattern.searchAll (points.length + 1) none points

/-- What is between the matches stays, and each match gives way to its replacement. -/
def replaceMatches (replacement : Match → JsString) : List JsString → List Match → JsString
  | behind, [] => behind.flatten
  | behind, found :: rest =>
    (behind.take (behind.length - found.stop.behind.length - (codePoints found.text).length)).flatten ++
      (replacement found ++ replaceMatches replacement found.stop.behind rest)

/-- `text.replace(pattern, replacement)` with the flag `g`, for a pattern that reads at least one code point. -/
def replaceAll (pattern : Pattern) (replacement : Match → JsString) (text : JsString) : JsString :=
  replaceMatches replacement (codePoints text) (pattern.matchAll text)

/-- A replacement of each match is in the text. -/
theorem replacement_sublist {replacement : Match → JsString} {points : List JsString} {found : List Match} {one : Match}
    (listed : one ∈ found) : (replacement one).Sublist (replaceMatches replacement points found) := by
  induction found generalizing points with
  | nil => cases listed
  | cons first rest ih =>
    rw [replaceMatches]
    cases List.mem_cons.mp listed with
    | inl same =>
      subst same
      exact (List.sublist_append_left _ _).trans (List.sublist_append_right _ _)
    | inr later => exact (ih later).trans ((List.sublist_append_right _ _).trans (List.sublist_append_right _ _))

/-- Where nothing matches nothing changes. -/
theorem replaceAll_of_no_match {pattern : Pattern} {text : JsString} (absent : pattern.matchAll text = [])
    (replacement : Match → JsString) : pattern.replaceAll replacement text = text := by
  rw [replaceAll, absent, replaceMatches, flatten_codePoints]

end Pattern

end Host
