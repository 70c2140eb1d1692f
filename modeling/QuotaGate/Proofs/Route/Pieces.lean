import QuotaGate.Route

/-!
# Templates in pieces

A template is literal text with the placeholders of names in between. While no literal, no name
and no value has a brace, nothing but a whole placeholder looks like one, however the parameters
are filled in: filling in a parameter turns some of the holes into literals, and the others stay
whole. So the parameters that are filled in one after the other, each all over the path, come to one
pass over the pieces.

Results:
1. `PathParam.fill_textOf`: one parameter fills exactly the holes of its name.
2. `Route.compile_pieces`: each hole gets the value of the first parameter of its name.
-/

namespace QuotaGate

/-- A text that neither opens nor closes a placeholder. -/
structure IsPlain (text : List Char) : Prop where
  unopened : '\x7b' ∉ text
  unclosed : '\x7d' ∉ text

instance (text : List Char) : Decidable (IsPlain text) :=
  decidable_of_iff ('\x7b' ∉ text ∧ '\x7d' ∉ text)
    ⟨fun both => ⟨both.1, both.2⟩, fun plain => ⟨plain.unopened, plain.unclosed⟩⟩

/-- A text without braces. -/
structure Plain where
  text : String
  isPlain : IsPlain text.toList
  deriving DecidableEq

/-- A path parameter without braces. -/
structure PlainParam where
  name : Plain
  value : Plain

def PlainParam.param (param : PlainParam) : PathParam := ⟨param.name.text, param.value.text⟩

namespace PathParam

/-- A placeholder that comes first is told from any other by its name. -/
theorem placeholder_prefix_iff {name other : List Char} (plain : IsPlain name)
    (plainOther : IsPlain other) (rest : List Char) :
    placeholder name <+: placeholder other ++ rest ↔ name = other := by
  have tails : name ++ ['\x7d'] <+: other ++ '\x7d' :: rest ↔ name = other := by
    obtain ⟨-, unclosed⟩ := plain
    obtain ⟨-, closed⟩ := plainOther
    induction name generalizing other with
    | nil =>
      cases other with
      | nil => simp
      | cons c other =>
        obtain ⟨differs, -⟩ := List.ne_and_not_mem_of_not_mem_cons closed
        simp [differs]
    | cons c name ih =>
      obtain ⟨differs, unclosed⟩ := List.ne_and_not_mem_of_not_mem_cons unclosed
      cases other with
      | nil => simp [Ne.symm differs]
      | cons d other =>
        obtain ⟨-, closed⟩ := List.ne_and_not_mem_of_not_mem_cons closed
        rw [List.cons_append, List.cons_append, List.cons_prefix_cons, ih unclosed closed,
          List.cons.injEq]
  simpa [placeholder] using tails

/-- After its opening brace a placeholder opens no other. -/
theorem unopened_of_isPlain {name : List Char} (plain : IsPlain name) :
    '\x7b' ∉ name ++ ['\x7d'] := by simp [plain.unopened]

end PathParam

/-! ## Pieces -/

/-- A piece of a template. -/
inductive Piece where
  | literal (text : Plain)
  | hole (name : Plain)

namespace Piece

def chars : Piece → List Char
  | literal text => text.text.toList
  | hole name => PathParam.placeholder name.text.toList

/-- The piece after a parameter has been filled in. -/
def fill (piece : Piece) (param : PlainParam) : Piece :=
  match piece with
  | literal text => literal text
  | hole name => if param.name = name then literal param.value else hole name

/-- What stands for the piece in the path: for a hole the value of the first parameter of its name,
or the placeholder itself if there is none. -/
def inPath (params : List PlainParam) : Piece → Piece
  | literal text => literal text
  | hole name =>
    match params.find? fun param => param.name = name with
    | some param => literal param.value
    | none => hole name

end Piece

def textOf (pieces : List Piece) : List Char := pieces.flatMap Piece.chars

theorem Plain.eq_of_toList_eq {plain other : Plain}
    (same : plain.text.toList = other.text.toList) : plain = other := by
  obtain ⟨text, _⟩ := plain
  obtain ⟨otherText, _⟩ := other
  cases String.toList_inj.1 same
  rfl

/-- A hole of another name stays. -/
theorem PathParam.fill_hole_of_ne {param : PlainParam} {name : Plain} (other : param.name ≠ name)
    (rest : List Char) :
    PathParam.fill (placeholder name.text.toList ++ rest) param.param =
      placeholder name.text.toList ++ PathParam.fill rest param.param := by
  have absent : ¬placeholder param.name.text.toList <+: placeholder name.text.toList ++ rest := by
    rw [placeholder_prefix_iff param.name.isPlain name.isPlain]
    exact fun same => other (Plain.eq_of_toList_eq same)
  calc
    _ = '\x7b' :: PathParam.fill (name.text.toList ++ ['\x7d'] ++ rest) param.param :=
      PathParam.fill_cons absent
    _ = _ := by rw [PathParam.fill_append (unopened_of_isPlain name.isPlain)]; rfl

/-- One parameter fills exactly the holes of its name. -/
theorem PathParam.fill_textOf (pieces : List Piece) (param : PlainParam) :
    PathParam.fill (textOf pieces) param.param = textOf (pieces.map (·.fill param)) := by
  induction pieces with
  | nil => exact PathParam.fill_nil param.param
  | cons piece pieces ih =>
    simp only [textOf, List.map_cons, List.flatMap_cons] at ih ⊢
    rw [← ih]
    cases piece with
    | literal text => exact PathParam.fill_append text.isPlain.unopened _ _
    | hole name =>
      by_cases same : param.name = name
      · subst same
        simp only [Piece.fill, if_true]
        exact PathParam.fill_placeholder param.param _
      · simp only [Piece.fill, if_neg same]
        exact PathParam.fill_hole_of_ne same _

theorem Piece.foldl_fill_literal (params : List PlainParam) (text : Plain) :
    params.foldl Piece.fill (.literal text) = .literal text := by
  induction params with
  | nil => rfl
  | cons param params ih => exact ih

/-- What the parameters make of a piece one after the other, the first of its name makes of it. -/
theorem Piece.foldl_fill (params : List PlainParam) (piece : Piece) :
    params.foldl Piece.fill piece = piece.inPath params := by
  cases piece with
  | literal text => exact Piece.foldl_fill_literal params text
  | hole name =>
    induction params with
    | nil => rfl
    | cons param params ih =>
      by_cases same : param.name = name
      · simp [Piece.fill, Piece.inPath, same, Piece.foldl_fill_literal]
      · simpa [Piece.fill, Piece.inPath, same] using ih

theorem foldl_fill_textOf (pieces : List Piece) (params : List PlainParam) :
    (params.map PlainParam.param).foldl PathParam.fill (textOf pieces) =
      textOf (pieces.map (Piece.inPath params)) := by
  have each : ∀ pieces, (params.map PlainParam.param).foldl PathParam.fill (textOf pieces) =
      textOf (pieces.map (params.foldl Piece.fill)) := by
    induction params with
    | nil => simp
    | cons param params ih =>
      intro pieces
      simp only [List.map_cons, List.foldl_cons, PathParam.fill_textOf, ih, List.map_map]
      rfl
  rw [each]
  simp only [Piece.foldl_fill]

namespace Route

/-- Every literal stays, every hole gets the value of the first parameter of its name, and a hole
that no parameter names stays as well. The route keeps its method and its template. -/
theorem compile_pieces (method : Http.Method) (pieces : List Piece) (params : List PlainParam) :
    compile method (String.ofList (textOf pieces)) (params.map PlainParam.param) =
      ⟨⟨method, String.ofList (textOf pieces)⟩,
        String.ofList (textOf (pieces.map (Piece.inPath params)))⟩ := by
  rw [compile, String.toList_ofList, foldl_fill_textOf]

end Route

end QuotaGate
