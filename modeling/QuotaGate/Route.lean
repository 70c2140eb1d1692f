import QuotaGate.Http.Token
import QuotaGate.Text.Blank

/-!
# Routes

A route is the identity under which a request is counted against a quota: its method and its
endpoint template, whose path parameters stand as names in braces. The path is the template with
the parameters filled in, one after the other in the order given, so a value may bring a
placeholder that a later parameter fills.
-/

namespace QuotaGate

/-- The rate-limit identity of a request. -/
structure RouteKey where
  method : Http.Method
  template : String
  deriving DecidableEq, Repr

namespace RouteKey

/-- The one-line form used in messages: the method, a blank and the template. -/
def text (key : RouteKey) : String := key.method.text ++ " " ++ key.template

/-- A key prints as its one-line form. -/
instance : ToString RouteKey := ⟨text⟩

end RouteKey

/-- A path parameter: the name of a placeholder and the text to put in its place. -/
structure PathParam where
  name : String
  value : String
  deriving DecidableEq, Repr

namespace PathParam

/-- The placeholder of a name: the name in braces. -/
def placeholder (name : List Char) : List Char := '\x7b' :: (name ++ ['\x7d'])

/-- Fills every placeholder of one parameter. -/
def fill (path : List Char) (param : PathParam) : List Char :=
  Text.replaceChars (placeholder param.name.toList) param.value.toList path

theorem fill_nil (param : PathParam) : fill [] param = [] := Text.replaceChars_nil _ _

theorem fill_placeholder (param : PathParam) (rest : List Char) :
    fill (placeholder param.name.toList ++ rest) param =
      param.value.toList ++ fill rest param :=
  Text.replaceChars_append (List.cons_ne_nil _ _) _ rest

theorem fill_cons {param : PathParam} {c : Char} {rest : List Char}
    (absent : ¬placeholder param.name.toList <+: c :: rest) :
    fill (c :: rest) param = c :: fill rest param :=
  Text.replaceChars_cons absent _

/-- A placeholder begins with its opening brace. -/
theorem not_placeholder_prefix_cons {c : Char} (other : '\x7b' ≠ c) (name rest : List Char) :
    ¬placeholder name <+: c :: rest :=
  fun here => other (List.cons_prefix_cons.1 here).1

/-- What opens no placeholder stays. -/
theorem fill_append {opening : List Char} (unopened : '\x7b' ∉ opening) (rest : List Char)
    (param : PathParam) : fill (opening ++ rest) param = opening ++ fill rest param := by
  induction opening with
  | nil => rfl
  | cons c opening ih =>
    obtain ⟨other, unopened⟩ := List.ne_and_not_mem_of_not_mem_cons unopened
    rw [List.cons_append, fill_cons (not_placeholder_prefix_cons other _ _), ih unopened,
      List.cons_append]

end PathParam

/-- A concrete request target: the identity and the path with its parameters filled in. -/
structure Route where
  key : RouteKey
  path : String
  deriving DecidableEq, Repr

namespace Route

/-- Fills the parameters into a template. A placeholder that no parameter names stays. -/
def compile (method : Http.Method) (template : String) (params : List PathParam) : Route where
  key := ⟨method, template⟩
  path := String.ofList (params.foldl PathParam.fill template.toList)

end Route

end QuotaGate
