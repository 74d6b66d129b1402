import TemplateBundle.Proofs.Script.Lockstep.Patterns
import TemplateBundle.Proofs.Script.Parts

/-!
# Functions and classes in step
-/

namespace TemplateBundle.Script

variable {pairing : Pairing} {recur : Recur} {context : Context} {settled : Bool} {token : Token}
  {before : Cursor → Cursor → Prop}

/-! ## Parameters -/

/-- The same parameters, but perhaps at other lines. -/
structure Parameters.Alike (first second : Parameters) : Prop where
  names : SameNames first.names second.names
  simple : first.simple = second.simple
  count : first.count = second.count
  hasRest : first.hasRest = second.hasRest

theorem keeps_parameters (hrecur : pairing.KeepsParts recur) :
    pairing.Keeps false true (parameters recur context) (parameters recur context)
      Parameters.Alike := by
  intro token
  unfold parameters
  refine follows_line fun line line' => follows_expect fun _ => ?_
  refine follows_repeat Parameters.Alike ⟨rfl, rfl, rfl, rfl⟩ fun read read' token hread => ?_
  refine follows_accepts (fun _ => follows_done hread (by decide)) fun _ => ?_
  refine follows_accepts (fun _ => ?_) fun _ => ?_
  · refine (hrecur.binding context).bind fun term term' _ hterm => follows_expect fun _ => ?_
    refine follows_done ?_ (by decide)
    exact ⟨hread.names.append hterm.names, rfl, congrArg (· + 1) hread.count, rfl⟩
  refine (hrecur.binding context).bind fun term term' _ hterm => ?_
  refine (keeps_initializer hrecur).bind_settled ?_
  rintro hasInitializer _ _ rfl
  refine follows_separator fun _ _ _ => follows_again ⟨?_, ?_, ?_, hread.hasRest⟩ nofun
  · exact hread.names.append hterm.names
  · rw [hread.simple, hterm.form]
  · exact congrArg (· + 1) hread.count

/-! ## Bodies -/

/-- The same is known of the start of a body. -/
structure Prologue.Alike (first second : Prologue) : Prop where
  isOpen : first.isOpen = second.isOpen
  strict : first.strict = second.strict
  directive : first.directive.isSome = second.directive.isSome
  legacy : first.legacy.isSome = second.legacy.isSome

/-- Both lines are known or none is. -/
abbrev SameKnown (line line' : Option Nat) : Prop :=
  line.isSome = line'.isSome

/-- Behind a statement the same is known of the start of the body. -/
theorem follows_behind_statement {prologue prologue' : Prologue} (hsame : prologue.Alike prologue')
    {term term' : Term} (hterm : term.Alike term') :
    Follows (pairing.At settled token) (behindStatement prologue term)
      (behindStatement prologue' term') (pairing.Rounds false true Prologue.Alike SameKnown) := by
  unfold behindStatement
  rw [hsame.isOpen, hterm.form]
  split
  · rename_i legacy _ _
    have hlegacy : (prologue.legacy <|> if legacy = true then some term.line else none).isSome =
        (prologue'.legacy <|> if legacy = true then some term'.line else none).isSome := by
      cases legacy <;> simp [hsame.legacy]
    refine follows_ite (fun _ => ?_) fun _ => ?_
    · refine (stays_report_any hlegacy).bind fun _ _ _ => ?_
      exact follows_again ⟨rfl, rfl, rfl, hsame.legacy⟩ nofun
    · exact follows_again ⟨rfl, hsame.strict, hsame.directive, hlegacy⟩ nofun
  · exact follows_again ⟨rfl, hsame.strict, hsame.directive, hsame.legacy⟩ nofun

theorem follows_body_round (hrecur : pairing.KeepsParts recur) {prologue prologue' : Prologue}
    (hsame : prologue.Alike prologue') :
    Follows (pairing.At false token) (bodyRound recur context prologue)
      (bodyRound recur context prologue')
      (pairing.Rounds false true Prologue.Alike SameKnown) := by
  unfold bodyRound
  refine follows_accepts (fun _ => follows_done hsame.directive (by decide)) fun _ => ?_
  rw [hsame.strict]
  exact (hrecur.statement _ .list).bind fun _ _ _ hterm => follows_behind_statement hsame hterm

theorem keeps_function_body (hrecur : pairing.KeepsParts recur) :
    pairing.Keeps false true (functionBody recur context) (functionBody recur context)
      SameKnown := by
  intro token
  rw [function_body_eq]
  refine follows_expect fun _ => ?_
  exact follows_repeat Prologue.Alike ⟨rfl, rfl, rfl, rfl⟩ fun _ _ _ => follows_body_round hrecur

theorem same_names_iff {names names' : List BoundName} :
    SameNames names names' ↔
      List.Forall₂ (fun name name' : BoundName => name.text = name'.text) names names' := by
  rw [SameNames, ← List.forall₂_eq_eq_eq, List.forall₂_map_left_iff, List.forall₂_map_right_iff]

theorem stays_check_strict_names {names names' : List BoundName} (h : SameNames names names') :
    pairing.Stays (checkStrictNames names) (checkStrictNames names') fun _ _ => True := by
  refine stays_for_each (fun name name' hname => ?_) (same_names_iff.mp h)
  exact stays_when_iff (by rw [hname]) (stays_report _ _)

theorem SameNames.repeated {names names' : List BoundName} (h : SameNames names names') :
    SameKnown ((repeatedName? names).map BoundName.line)
      ((repeatedName? names').map BoundName.line) := by
  rw [SameKnown, Option.isSome_map, Option.isSome_map]
  have hmembers := same_names_iff.mp h
  clear h
  induction hmembers with
  | nil => rfl
  | @cons name name' others others' hname hothers ih =>
      have hfind : (others.find? fun other => other.text == name.text).isSome =
          (others'.find? fun other => other.text == name'.text).isSome := by
        rw [hname]
        clear ih
        induction hothers with
        | nil => rfl
        | cons hother _ ih =>
            rw [List.find?_cons, List.find?_cons, hother]
            split
            · rfl
            · exact ih
      unfold repeatedName?
      cases hfirst : others.find? fun other => other.text == name.text <;>
        cases hsecond : others'.find? fun other => other.text == name'.text <;>
        rw [hfirst, hsecond] at hfind
      · exact ih
      · nomatch hfind
      · nomatch hfind
      · rfl

theorem stays_check_parameters (unique : Bool) {read read' : Parameters}
    (hread : read.Alike read') {directive directive' : Option Nat}
    (hdirective : SameKnown directive directive') :
    pairing.Stays (checkParameters context unique read directive)
      (checkParameters context unique read' directive') fun _ _ => True := by
  intro settled token
  unfold checkParameters
  rw [hread.simple, hdirective]
  refine follows_when (stays_report_any hdirective) ?_
  refine follows_when (stays_check_strict_names hread.names) ?_
  exact stays_when (stays_report_any hread.names.repeated) settled token

/-- The parameters and the body, before they are checked together. -/
def functionParts (recur : Recur) (inner : Context) : Reading (Parameters × Option Nat) := do
  let (read, seen) ← Reading.apart (parameters recur inner)
  Reading.reportAny (seen.yields <|> seen.awaits)
  pure (read, ← functionBody recur inner)

/-- The same parts were read, but perhaps at other lines. -/
abbrev PartsAlike (found other : Parameters × Option Nat) : Prop :=
  found.1.Alike other.1 ∧ SameKnown found.2 other.2

theorem keeps_function_parts (hrecur : pairing.KeepsParts recur) (inner : Context) :
    pairing.Keeps false true (functionParts recur inner) (functionParts recur inner)
      PartsAlike := by
  intro token
  refine (keeps_parameters hrecur).apart.bind ?_
  rintro ⟨read, seen⟩ ⟨read', seen'⟩ _ ⟨hread, hseen⟩
  have hsuspended : SameKnown (seen.yields <|> seen.awaits) (seen'.yields <|> seen'.awaits) := by
    simp [SameKnown, hseen.yields, hseen.awaits]
  refine (stays_report_any hsuspended).bind fun _ _ _ => ?_
  refine (keeps_function_body hrecur).bind fun directive directive' _ hdirective => ?_
  exact follows_return ⟨hread, hdirective⟩ id

/-- A function is read with its parameters and what is known of its directive. -/
theorem leads_function_rest {kind : FunctionKind} {isMethod later : Bool}
    (h : pairing.Leads before later
      (Reading.apart (functionParts recur (context.ofFunction kind isMethod)))
      (Reading.apart (functionParts recur (context.ofFunction kind isMethod)))
      (WithSeen PartsAlike)) :
    pairing.Leads before later (functionRest recur context kind isMethod)
      (functionRest recur context kind isMethod) PartsAlike := by
  unfold functionRest
  refine Pairing.Leads.bind h ?_
  rintro ⟨⟨read, directive⟩, seen⟩ ⟨⟨read', directive'⟩, seen'⟩ _ ⟨⟨hread, hdirective⟩, -⟩
  refine (stays_check_parameters isMethod hread hdirective).bind fun _ _ _ => ?_
  exact follows_return ⟨hread, hdirective⟩ id

theorem keeps_function_rest (hrecur : pairing.KeepsParts recur) (kind : FunctionKind)
    (isMethod : Bool) :
    pairing.Keeps false true (functionRest recur context kind isMethod)
      (functionRest recur context kind isMethod) PartsAlike :=
  fun token => leads_function_rest
    ((keeps_function_parts hrecur (context.ofFunction kind isMethod)).apart token)

theorem keeps_method (hrecur : pairing.KeepsParts recur) (kind : FunctionKind)
    (accessor : Option Accessor) :
    pairing.Keeps false true (method recur context kind accessor)
      (method recur context kind accessor) fun _ _ => True := by
  intro token
  unfold method
  refine (keeps_function_rest hrecur kind true).bind ?_
  rintro ⟨read, _⟩ ⟨read', _⟩ _ ⟨hread, _⟩
  dsimp only
  split
  · exact (stays_when_iff (by rw [hread.count]) (stays_report _ _)).keeps _
  · exact (stays_when_iff (by rw [hread.count, hread.hasRest]) (stays_report _ _)).keeps _
  · exact follows_return trivial id

/-- A function behind its name. -/
theorem leads_behind_name {kind : FunctionKind} {name name' : Option Term} {later : Bool}
    (hname : SameNames (name.elim [] Term.names) (name'.elim [] Term.names))
    (h : pairing.Leads before later (functionRest recur context kind false)
      (functionRest recur context kind false) PartsAlike) :
    pairing.Leads before later
      (do
        let (_, directive) ← functionRest recur context kind false
        if directive.isSome then
          checkStrictNames (name.elim [] Term.names))
      (do
        let (_, directive) ← functionRest recur context kind false
        if directive.isSome then
          checkStrictNames (name'.elim [] Term.names))
      fun _ _ => True := by
  refine Pairing.Leads.bind h ?_
  rintro ⟨_, directive⟩ ⟨_, directive'⟩ _ ⟨_, hdirective⟩
  exact (stays_when_iff (by rw [hdirective]) (stays_check_strict_names hname)).keeps _

/-- A function from its name on. -/
theorem follows_named (hrecur : pairing.KeepsParts recur) (kind : FunctionKind) (naming : Context) :
    Follows (pairing.At settled token)
      (do
        let name ← some <$> bindingName naming
        let (_, directive) ← functionRest recur context kind false
        if directive.isSome then
          checkStrictNames (name.elim [] Term.names))
      (do
        let name ← some <$> bindingName naming
        let (_, directive) ← functionRest recur context kind false
        if directive.isSome then
          checkStrictNames (name.elim [] Term.names))
      fun _ _ here there => True ∧ pairing.Somewhere true here there := by
  rw [map_eq_pure_bind, bind_assoc]
  refine keeps_binding_name.bind fun name name' _ hname => ?_
  exact leads_behind_name hname.names ((keeps_function_rest hrecur kind false).of_unsettled _)

theorem keeps_function (hrecur : pairing.KeepsParts recur) (asynchronous isDeclaration : Bool) :
    pairing.Keeps false true (function recur context asynchronous isDeclaration)
      (function recur context asynchronous isDeclaration) fun _ _ => True := by
  intro token
  unfold function
  refine follows_expect_word fun _ => follows_accepts (fun _ => follows_sees ?_) fun _ =>
    follows_sees ?_
  all_goals
    refine follows_ite (fun _ => ?_) fun _ => follows_named hrecur _ _
    exact leads_behind_name rfl ((keeps_function_rest hrecur _ false).of_unsettled _)

/-! ## Arrow functions -/

/-- The same item, but perhaps at another line. -/
structure Item.Alike (first second : Item) : Prop where
  spread : first.spread = second.spread
  term : first.term.Alike second.term

/-- The same items, but perhaps at other lines. -/
structure Items.Alike (first second : Items) : Prop where
  items : List.Forall₂ Item.Alike first.items second.items
  trailing : first.trailing = second.trailing

theorem Term.Alike.at_lines {term term' : Term} (h : term.Alike term') (line line' : Nat) :
    Term.Alike { term with line := line } { term' with line := line' } :=
  ⟨h.form, h.isTarget, h.patternFault, h.bindingFault, h.names, h.coverFault⟩

/-- The same items were read so far, but perhaps at other lines. -/
abbrev ReadAlike (state state' : List Item × Bool) : Prop :=
  List.Forall₂ Item.Alike state.1 state'.1 ∧ state.2 = state'.2

theorem follows_behind_item {read read' : List Item} (hread : List.Forall₂ Item.Alike read read')
    {item item' : Item} (hitem : item.Alike item') :
    Follows (pairing.At settled token) (behindItem read item) (behindItem read' item')
      (pairing.Rounds false true ReadAlike Items.Alike) := by
  unfold behindItem
  refine follows_accepts (fun _ => follows_again ⟨.cons hitem hread, rfl⟩ nofun) fun _ => ?_
  refine follows_sees (follows_ite (fun _ => ?_) fun _ => follows_fail_bind)
  exact follows_again ⟨.cons hitem hread, rfl⟩ nofun

theorem follows_item_round (hrecur : pairing.KeepsParts recur) {first first' : Nat}
    {state state' : List Item × Bool} (hstate : ReadAlike state state') :
    Follows (pairing.At false token) (itemRound recur context first state)
      (itemRound recur context first' state')
      (pairing.Rounds false true ReadAlike Items.Alike) := by
  unfold itemRound
  refine follows_line fun line line' => ?_
  refine follows_accepts (fun _ => ?_) fun _ => ?_
  · exact follows_done ⟨List.rel_reverse hstate.1, hstate.2⟩ (by decide)
  refine (keeps_accepts "...").bind ?_
  rintro spread _ _ rfl
  refine (hrecur.assignment _).bind fun term term' _ hterm => ?_
  have hitem : Item.Alike
      { spread := spread, term := if spread then { term with line := line } else term }
      { spread := spread, term := if spread then { term' with line := line' } else term' } := by
    cases spread with
    | false => exact ⟨rfl, hterm⟩
    | true => exact ⟨rfl, hterm.at_lines line line'⟩
  exact follows_behind_item hstate.1 hitem

theorem keeps_items (hrecur : pairing.KeepsParts recur) :
    pairing.Keeps false true (items recur context) (items recur context) Items.Alike := by
  intro token
  rw [items_eq]
  refine follows_line fun first first' => follows_expect fun _ => ?_
  exact follows_repeat ReadAlike ⟨.nil, rfl⟩ fun _ _ _ => follows_item_round hrecur

theorem Item.Alike.stays_check_parameter {item item' : Item} (h : item.Alike item')
    (isLast : Bool) :
    pairing.Stays (item.checkParameter isLast) (item'.checkParameter isLast)
      fun _ _ => True := by
  intro settled token
  unfold Item.checkParameter
  refine (stays_fail_any h.term.bindingFault).bind fun _ _ _ => ?_
  refine stays_when_iff (by rw [h.spread, h.term.form]) ?_ settled token
  exact fun _ _ => follows_fail_at _

/-- The item is a plain name. -/
theorem Item.Alike.is_plain {item item' : Item} (h : item.Alike item') :
    (match item.term.form with
      | .name _ => !item.spread
      | _ => false) =
    match item'.term.form with
      | .name _ => !item'.spread
      | _ => false := by
  rw [h.spread, h.term.form]

theorem forall₂_all {α β : Type} {members : α → β → Prop} {list : List α} {list' : List β}
    {test : α → Bool} {test' : β → Bool}
    (h : ∀ member member', members member member' → test member = test' member')
    (hlist : List.Forall₂ members list list') : list.all test = list'.all test' := by
  induction hlist with
  | nil => rfl
  | cons hmember _ ih => rw [List.all_cons, List.all_cons, h _ _ hmember, ih]

theorem forall₂_any {α β : Type} {members : α → β → Prop} {list : List α} {list' : List β}
    {test : α → Bool} {test' : β → Bool}
    (h : ∀ member member', members member member' → test member = test' member')
    (hlist : List.Forall₂ members list list') : list.any test = list'.any test' := by
  induction hlist with
  | nil => rfl
  | cons hmember _ ih => rw [List.any_cons, List.any_cons, h _ _ hmember, ih]

theorem forall₂_zip_idx {α β : Type} {members : α → β → Prop} {list : List α} {list' : List β}
    (hlist : List.Forall₂ members list list') (start : Nat) :
    List.Forall₂ (fun entry entry' : _ × Nat => members entry.1 entry'.1 ∧ entry.2 = entry'.2)
      (list.zipIdx start) (list'.zipIdx start) := by
  induction hlist generalizing start with
  | nil => exact .nil
  | cons hmember _ ih => exact .cons ⟨hmember, rfl⟩ (ih _)

theorem Items.Alike.names {read read' : Items} (h : read.Alike read') :
    SameNames (read.items.flatMap fun item => item.term.names)
      (read'.items.flatMap fun item => item.term.names) :=
  same_names_iff.mpr (List.rel_flatMap h.items fun _ _ hitem => same_names_iff.mp hitem.term.names)

theorem Items.Alike.stays_to_parameters {read read' : Items} (h : read.Alike read') :
    pairing.Stays (read.toParameters context) (read'.toParameters context)
      Parameters.Alike := by
  intro settled token
  unfold Items.toParameters
  rw [h.items.length_eq, h.trailing]
  refine Pairing.Stays.bind (stays_for_each ?_ (forall₂_zip_idx h.items 0)) fun _ _ _ => ?_
  · rintro ⟨item, index⟩ ⟨item', _⟩ ⟨hitem, rfl⟩
    exact hitem.stays_check_parameter _
  refine follows_when (stays_check_strict_names h.names) (stays_pure ?_ settled token)
  exact ⟨h.names, forall₂_all (fun _ _ hitem => hitem.is_plain) h.items, rfl,
    forall₂_any (fun _ _ hitem => hitem.spread) h.items⟩

theorem plain_alike (line line' : Nat) (form : Form) :
    (Term.plain line form).Alike (Term.plain line' form) :=
  ⟨rfl, rfl, rfl, rfl, rfl, rfl⟩

/-- The body of an arrow function is a block or a value. -/
theorem keeps_arrow_body (hrecur : pairing.KeepsParts recur) (blockContext valueContext : Context) :
    pairing.Keeps false true
      (do
        if ← Reading.sees "\x7b" then functionBody recur blockContext
        else
          let _ ← value recur valueContext
          pure none)
      (do
        if ← Reading.sees "\x7b" then functionBody recur blockContext
        else
          let _ ← value recur valueContext
          pure none) SameKnown := by
  refine fun token => follows_sees (follows_ite (fun _ => keeps_function_body hrecur token) fun _ => ?_)
  exact (keeps_value hrecur).bind fun _ _ _ _ => follows_return rfl id

theorem keeps_arrow_rest (hrecur : pairing.KeepsParts recur) (asynchronous : Bool)
    {read read' : Parameters} (hread : read.Alike read') {seen seen' : Suspensions}
    (hseen : seen.Alike seen') :
    pairing.Keeps true true (arrowRest recur context asynchronous read seen)
      (arrowRest recur context asynchronous read' seen') Term.Alike := by
  intro token
  unfold arrowRest
  refine follows_newline (fun newline => ?_) ?_
  · refine follows_ite (fun _ => follows_fail_bind) fun _ => follows_expect fun next => ?_
    have hsuspended :
        SameKnown (seen.yields <|> seen.awaits <|> if asynchronous then seen.awaitNames else none)
          (seen'.yields <|> seen'.awaits <|> if asynchronous then seen'.awaitNames else none) := by
      cases asynchronous <;> simp [SameKnown, hseen.yields, hseen.awaits, hseen.awaitNames]
    refine (stays_report_any hsuspended).bind fun _ _ _ => ?_
    refine (keeps_arrow_body hrecur _ _).apart.bind ?_
    rintro ⟨directive, _⟩ ⟨directive', _⟩ _ ⟨hdirective, _⟩
    refine (stays_check_parameters true hread hdirective).bind fun _ _ _ => ?_
    exact follows_return (plain_alike read.line read'.line .arrow) id
  · exact fun _ => follows_fail_bind

/-! ## Classes -/

theorem keeps_semicolon :
    pairing.Keeps true false Reading.semicolon Reading.semicolon fun _ _ => True := by
  intro token
  unfold Reading.semicolon
  refine follows_accepts (fun _ => follows_return trivial nofun) fun _ => ?_
  refine follows_newline (fun newline => follows_sees (follows_current ?_)) ?_
  · exact follows_ite (fun _ => follows_return trivial nofun) fun _ => follows_fail
  · rintro rfl
    refine follows_sees (follows_current ?_)
    exact follows_ite (fun _ => follows_return trivial nofun) fun _ => follows_fail

section

variable {γ δ : Type} {after : γ → δ → Cursor → Cursor → Prop} {rest : Bool → Reading γ}
  {others : Bool → Reading δ} {word : String}

theorem follows_is_modifier {sameLine : Bool}
    (hyes : token = .name word false →
      Follows (pairing.At settled token) (rest true) (others true) after)
    (hno : Follows (pairing.At settled token) (rest false) (others false) after) :
    Follows (pairing.At settled token) (isModifier word sameLine >>= rest)
      (isModifier word sameLine >>= others) after := by
  have hany : token = .name word false → ∀ found,
      Follows (pairing.At settled token) (rest found) (others found) after
    | _, false => hno
    | htoken, true => hyes htoken
  unfold isModifier
  rw [bind_assoc, bind_assoc]
  refine follows_sees_word ?_
  by_cases htoken : token = .name word false
  · rw [if_pos (by exact beq_iff_eq.mpr htoken), bind_assoc, bind_assoc]
    refine follows_peek (htoken ▸ rfl) fun lexeme lexeme' hlexeme hsettled => ?_
    rw [pure_bind, pure_bind, ← hlexeme]
    obtain hnewline | ⟨-, hbrace⟩ := hsettled
    · rw [hnewline]
      exact hany htoken _
    · -- a closing brace cannot follow a modifier on any line
      rw [hbrace]
      exact hno
  · rw [if_neg (by exact mt eq_of_beq htoken), pure_bind, pure_bind]
    exact hno

theorem follows_is_accessor
    (hyes : token = .name word false →
      Follows (pairing.At settled token) (rest true) (others true) after)
    (hno : Follows (pairing.At settled token) (rest false) (others false) after) :
    Follows (pairing.At settled token) (isAccessor word >>= rest) (isAccessor word >>= others)
      after := by
  unfold isAccessor
  rw [bind_assoc, bind_assoc]
  refine follows_is_modifier (fun htoken => ?_) hno
  rw [if_pos rfl, bind_assoc, bind_assoc]
  refine follows_peek (htoken ▸ rfl) fun lexeme lexeme' hlexeme _ => ?_
  rw [pure_bind, pure_bind, hlexeme]
  cases lexeme'.token != .sign "*" with
  | false => exact hno
  | true => exact hyes htoken

/-- A modifier is passed over, if one comes next. -/
theorem follows_modifier {sameLine : Bool} {rest : Bool → Unit → Reading γ}
    {others : Bool → Unit → Reading δ}
    (h : ∀ found later next, (settled = true → later = true) →
      Follows (pairing.At later next) (rest found ()) (others found ()) after) :
    Follows (pairing.At settled token)
      (isModifier word sameLine >>= fun found =>
        if found = true then Reading.next >>= rest found else rest found ())
      (isModifier word sameLine >>= fun found =>
        if found = true then Reading.next >>= others found else others found ()) after := by
  refine follows_is_modifier (fun htoken => ?_) (h false settled token id)
  subst htoken
  exact follows_next fun next => h true true next fun _ => rfl

end

/-- The modifiers of a method leave settled what is settled. -/
theorem keeps_method_head : pairing.Keeps settled settled methodHead methodHead Eq := by
  intro token
  unfold methodHead
  have haccessor : ∀ (word : String) (head : MethodHead), token = .name word false →
      Follows (pairing.At settled token) (Reading.next >>= fun _ => pure head)
        (Reading.next >>= fun _ => pure head) fun found other here there =>
          found = other ∧ pairing.Somewhere settled here there := by
    rintro word head rfl
    exact follows_next fun _ => follows_return rfl fun _ => rfl
  refine follows_is_accessor (haccessor "get" _) (follows_is_accessor (haccessor "set" _) ?_)
  refine follows_modifier fun found later next hlater => ?_
  exact follows_accepts (fun _ => follows_return rfl fun _ => by decide)
    fun _ => follows_return rfl hlater

theorem keeps_statements_to_brace (hrecur : pairing.KeepsParts recur) :
    pairing.Keeps false true (statementsToBrace recur context) (statementsToBrace recur context)
      fun _ _ => True := by
  intro token
  unfold statementsToBrace
  refine follows_repeat (fun _ _ => True) trivial fun _ _ token _ => ?_
  refine follows_accepts (fun _ => follows_done trivial (by decide)) fun _ => ?_
  exact (hrecur.statement _ .list).bind fun _ _ _ _ => follows_again trivial nofun

theorem Key.Alike.is_constructor {field field' : Key} (h : field.Alike field') (isStatic : Bool) :
    isConstructor isStatic field = isConstructor isStatic field' := by
  rw [isConstructor, isConstructor, h.hidden, h.text]

theorem Key.Alike.stays_check_method_name {field field' : Key} (h : field.Alike field')
    (isStatic : Bool) (head : MethodHead) (hasConstructor : Bool) :
    pairing.Stays (checkMethodName isStatic head field hasConstructor)
      (checkMethodName isStatic head field' hasConstructor) fun _ _ => True := by
  intro settled token
  unfold checkMethodName
  rw [h.is_constructor, h.hidden, h.text]
  exact follows_when (stays_report _ _)
    (follows_when (stays_report _ _) (stays_when (stays_report _ _) settled token))

theorem Key.Alike.stays_check_field_name {field field' : Key} (h : field.Alike field')
    (isStatic : Bool) :
    pairing.Stays (checkFieldName isStatic field) (checkFieldName isStatic field')
      fun _ _ => True := by
  intro settled token
  unfold checkFieldName
  rw [h.hidden, h.text]
  exact follows_when (stays_report _ _) (stays_when (stays_report _ _) settled token)

theorem keeps_class_element (hrecur : pairing.KeepsParts recur) (hasConstructor : Bool) :
    pairing.Keeps false false (classElement recur context hasConstructor)
      (classElement recur context hasConstructor) Eq := by
  intro token
  unfold classElement
  refine follows_modifier fun isStatic settled token _ => follows_sees ?_
  refine follows_ite (fun _ => ?_) fun _ => ?_
  · refine follows_next fun _ => ?_
    refine (keeps_statements_to_brace hrecur).apart.bind fun _ _ _ _ => ?_
    exact follows_return rfl nofun
  refine keeps_method_head.bind_settled ?_
  rintro head _ _ rfl
  refine (keeps_key hrecur true).bind fun field field' _ hfield => follows_sees ?_
  refine follows_ite (fun _ => ?_) fun _ => ?_
  · refine (hfield.stays_check_method_name isStatic head hasConstructor).bind fun _ _ _ => ?_
    refine (keeps_method hrecur head.kind head.accessor).bind fun _ _ _ _ => ?_
    rw [hfield.is_constructor]
    exact follows_return rfl nofun
  refine follows_ite (fun _ => follows_fail_bind) fun _ => ?_
  refine (hfield.stays_check_field_name isStatic).bind fun _ _ _ => ?_
  refine (keeps_initializer hrecur).apart.bind_settled fun _ _ _ _ => ?_
  exact keeps_semicolon.bind_settled fun _ _ _ _ => follows_return rfl nofun

theorem keeps_class_body (hrecur : pairing.KeepsParts recur) (hasConstructor : Bool) :
    pairing.Keeps false true
      (Reading.repeatUpTo (fun (hasConstructor : Bool) => do
        if ← Reading.accepts "\x7d" then return .done ()
        if ← Reading.accepts ";" then return .again hasConstructor
        return .again (← classElement recur context hasConstructor)) context.bound hasConstructor)
      (Reading.repeatUpTo (fun (hasConstructor : Bool) => do
        if ← Reading.accepts "\x7d" then return .done ()
        if ← Reading.accepts ";" then return .again hasConstructor
        return .again (← classElement recur context hasConstructor)) context.bound hasConstructor)
      fun (_ _ : Unit) => True := by
  intro token
  refine follows_repeat Eq rfl ?_
  rintro hasConstructor _ token rfl
  refine follows_accepts (fun _ => follows_done trivial (by decide)) fun _ => ?_
  refine follows_accepts (fun _ => follows_again rfl nofun) fun _ => ?_
  refine (keeps_class_element hrecur hasConstructor).bind ?_
  rintro hasConstructor _ _ rfl
  exact follows_again rfl nofun

theorem keeps_class (hrecur : pairing.KeepsParts recur) (needsName : Bool) :
    pairing.Keeps false true (classFrom recur context needsName)
      (classFrom recur context needsName) fun _ _ => True := by
  intro token
  unfold classFrom
  refine follows_expect_word fun next => follows_sees (follows_sees_word ?_)
  refine follows_optional keeps_binding_name fun settled token => ?_
  refine follows_accepts_word (fun _ => ?_) fun _ => ?_
  · refine (hrecur.operand _ true).bind fun parent parent' _ hparent => ?_
    refine hparent.stays_settle.bind fun _ _ _ => ?_
    exact follows_expect fun _ => keeps_class_body hrecur false _
  · exact follows_expect fun _ => keeps_class_body hrecur false _

end TemplateBundle.Script
