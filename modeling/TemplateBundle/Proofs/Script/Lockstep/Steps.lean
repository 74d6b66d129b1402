import Mathlib.Data.List.Forall2
import TemplateBundle.Proofs.Except
import TemplateBundle.Script.Check

/-!
# Parsers in step

Two texts may be written differently and still be the same to a parser: the same tokens are read from
both, and where a line ends in only one of them no parser minds (`Pairing`). What a parser reads from
the first text it then reads from the second one, with the same result up to the lines of faults.
`Follows` says so of a run of a parser; it has a rule for each step that parsers are made of.
-/

namespace TemplateBundle.Script

/-! ## Tokens of two texts -/

/-- A line end behind the token may matter. Behind the other tokens no statement ends, and nothing
that stands there has to stand on the same line. -/
def Token.settles : Token → Bool
  | .sign text => !([";", "\x7b", "+", "+=", "="].contains text)
  | _ => true

/-- A line ends before the token in both texts or in none, or only in the first one, before a
closing brace: there every statement may end. -/
def Lexeme.Settled (first second : Lexeme) : Prop :=
  first.newline = second.newline ∨ first.newline = true ∧ first.token = .sign "\x7d"

/-- The same token in two texts, and what a parser can read from it. `places` relates the places of
the texts; its first argument says that the next tokens are settled. Templates are met only if
`ticks`. -/
structure Lexeme.Twin (places : Bool → Place → Place → Prop) (ticks : Prop)
    (first second : Lexeme) : Prop where
  token : first.token = second.token
  after : places first.token.settles first.after second.after
  tick : first.token = .sign "\x60" → ticks
  regex : first.token = .sign "/" ∨ first.token = .sign "/=" →
    ∀ place, regexAt first.start = .ok place →
      ∃ other, regexAt second.start = .ok other ∧ places true place other
  template : ticks → ∀ read,
    templateText (first.after.rest.length + 1) first.after.rest first.after.line none = .ok read →
    ∃ other,
      templateText (second.after.rest.length + 1) second.after.rest second.after.line none =
        .ok other ∧
      read.opens = other.opens ∧ read.fault.isSome = other.fault.isSome ∧
      places (!read.opens) read.after other.after

/-- How the places of two texts belong together: the same tokens are read from them. -/
structure Pairing where
  places : Bool → Place → Place → Prop
  ticks : Prop
  same_token {settled : Bool} {first second : Place} {lexeme : Lexeme}
    (hplaces : places settled first second) (hlex : lex first = .ok lexeme) :
    ∃ other, lex second = .ok other ∧ lexeme.Twin places ticks other ∧
      (settled = true → lexeme.Settled other)

/-! ## Results up to lines -/

/-- The same kinds were met. -/
structure Suspensions.Alike (first second : Suspensions) : Prop where
  yields : first.yields.isSome = second.yields.isSome
  awaits : first.awaits.isSome = second.awaits.isSome
  awaitNames : first.awaitNames.isSome = second.awaitNames.isSome

/-- The same, but perhaps at other lines. -/
structure Term.Alike (first second : Term) : Prop where
  form : first.form = second.form
  isTarget : first.isTarget = second.isTarget
  patternFault : first.patternFault.isSome = second.patternFault.isSome
  bindingFault : first.bindingFault.isSome = second.bindingFault.isSome
  names : first.names.map BoundName.text = second.names.map BoundName.text
  coverFault : first.coverFault.isSome = second.coverFault.isSome

theorem Suspensions.Alike.rfl {seen : Suspensions} : seen.Alike seen :=
  ⟨.refl _, .refl _, .refl _⟩

theorem Suspensions.Alike.merge {first second third fourth : Suspensions} (h : first.Alike second)
    (hother : third.Alike fourth) : (first.merge third).Alike (second.merge fourth) where
  yields := by simp [Suspensions.merge, h.yields, hother.yields]
  awaits := by simp [Suspensions.merge, h.awaits, hother.awaits]
  awaitNames := by simp [Suspensions.merge, h.awaitNames, hother.awaitNames]

/-- Where the first parser has a result, the second one has one, too. -/
def Follows {α β : Type} (before : Cursor → Cursor → Prop) (first : Reading α) (second : Reading β)
    (after : α → β → Cursor → Cursor → Prop) : Prop :=
  ∀ here there, before here there → ∀ found here', first.run here = .ok (found, here') →
    ∃ other there', second.run there = .ok (other, there') ∧ after found other here' there'

namespace Pairing

/-- The cursors stand at the same token. -/
structure At (pairing : Pairing) (settled : Bool) (token : Token) (here there : Cursor) :
    Prop where
  token : here.lexeme.token = token
  lexeme : here.lexeme.Twin pairing.places pairing.ticks there.lexeme
  settles : settled = true → here.lexeme.Settled there.lexeme
  early : here.early.isSome = there.early.isSome
  seen : here.seen.Alike there.seen

/-- The cursors stand at some token that is the same. -/
abbrev Somewhere (pairing : Pairing) (settled : Bool) (here there : Cursor) : Prop :=
  pairing.At settled here.lexeme.token here there

/-- The parsers do not move. -/
def Stays {α β : Type} (pairing : Pairing) (first : Reading α) (second : Reading β)
    (related : α → β → Prop) : Prop :=
  ∀ settled token, Follows (pairing.At settled token) first second fun found other here there =>
    related found other ∧ pairing.At settled token here there

/-- The parsers lead to the same token in both texts. -/
abbrev Leads {α β : Type} (pairing : Pairing) (before : Cursor → Cursor → Prop) (later : Bool)
    (first : Reading α) (second : Reading β) (related : α → β → Prop) : Prop :=
  Follows before first second fun found other here there =>
    related found other ∧ pairing.Somewhere later here there

/-- The parsers lead from one token to the same one in both texts. -/
def Keeps {α β : Type} (pairing : Pairing) (settled later : Bool) (first : Reading α)
    (second : Reading β) (related : α → β → Prop) : Prop :=
  ∀ token, pairing.Leads (pairing.At settled token) later first second related

end Pairing

variable {pairing : Pairing} {α β γ δ σ τ : Type} {settled later : Bool} {token : Token}
  {before : Cursor → Cursor → Prop} {first : Reading α} {second : Reading β}
  {after : γ → δ → Cursor → Cursor → Prop} {rest : α → Reading γ} {others : β → Reading δ}
  {related : α → β → Prop}

namespace Pairing

theorem At.somewhere {here there : Cursor} (h : pairing.At settled token here there)
    (hlater : later = true → settled = true) : pairing.Somewhere later here there :=
  { h with token := rfl, settles := fun hsettled => h.settles (hlater hsettled) }

theorem At.unsettled {here there : Cursor} (h : pairing.At settled token here there) :
    pairing.At false token here there :=
  { h with settles := nofun }

end Pairing

/-! ## Chaining -/

namespace Follows

theorem mono {middle weaker : α → β → Cursor → Cursor → Prop}
    (h : Follows before first second middle)
    (hweaker : ∀ found other here there, middle found other here there →
      weaker found other here there) : Follows before first second weaker := by
  intro here there hbefore found here' hrun
  obtain ⟨other, there', hother, hmiddle⟩ := h here there hbefore found here' hrun
  exact ⟨other, there', hother, hweaker _ _ _ _ hmiddle⟩

theorem bind {middle : α → β → Cursor → Cursor → Prop} (h : Follows before first second middle)
    (hrest : ∀ found other, Follows (middle found other) (rest found) (others other) after) :
    Follows before (first >>= rest) (second >>= others) after := by
  intro here there hbefore found here' hrun
  rw [StateT.run_bind] at hrun
  obtain ⟨⟨value, here₁⟩, hfirst, hlast⟩ := except_bind_ok_iff.mp hrun
  obtain ⟨other, there₁, hsecond, hmiddle⟩ := h here there hbefore value here₁ hfirst
  obtain ⟨result, there', hothers, hafter⟩ :=
    hrest value other here₁ there₁ hmiddle found here' hlast
  refine ⟨result, there', ?_, hafter⟩
  rw [StateT.run_bind, hsecond]
  exact hothers

end Follows

namespace Pairing

theorem Stays.bind (h : pairing.Stays first second related)
    (hrest : ∀ found other, related found other →
      Follows (pairing.At settled token) (rest found) (others other) after) :
    Follows (pairing.At settled token) (first >>= rest) (second >>= others) after :=
  (h settled token).bind fun found other here there hmiddle =>
    hrest found other hmiddle.1 here there hmiddle.2

theorem Leads.bind (h : pairing.Leads before later first second related)
    (hrest : ∀ found other token, related found other →
      Follows (pairing.At later token) (rest found) (others other) after) :
    Follows before (first >>= rest) (second >>= others) after :=
  Follows.bind h fun found other here there hmiddle =>
    hrest found other here.lexeme.token hmiddle.1 here there hmiddle.2

theorem Keeps.bind_settled (h : pairing.Keeps settled later first second related)
    (hrest : ∀ found other token, related found other →
      Follows (pairing.At later token) (rest found) (others other) after) :
    Follows (pairing.At settled token) (first >>= rest) (second >>= others) after :=
  Leads.bind (h token) hrest

/-- What works before unsettled tokens works before all. -/
theorem Keeps.of_unsettled (h : pairing.Keeps false later first second related) :
    pairing.Keeps settled later first second related :=
  fun token here there hat => h token here there hat.unsettled

theorem Keeps.bind (h : pairing.Keeps false later first second related)
    (hrest : ∀ found other token, related found other →
      Follows (pairing.At later token) (rest found) (others other) after) :
    Follows (pairing.At settled token) (first >>= rest) (second >>= others) after :=
  h.of_unsettled.bind_settled hrest

theorem Keeps.mono {weaker : α → β → Prop} {last : Bool}
    (h : pairing.Keeps settled later first second related)
    (hweaker : ∀ found other, related found other → weaker found other)
    (hlast : last = true → later = true) : pairing.Keeps settled last first second weaker :=
  fun token => (h token).mono fun found other _ _ hafter =>
    ⟨hweaker found other hafter.1, hafter.2.somewhere hlast⟩

theorem Stays.keeps (h : pairing.Stays first second related) :
    pairing.Keeps settled settled first second related :=
  fun token => (h settled token).mono fun _ _ _ _ hafter => ⟨hafter.1, hafter.2.somewhere id⟩

end Pairing

/-- The end of a parser. -/
theorem follows_return {value : α} {other : β} (h : related value other)
    (hlater : later = true → settled = true) :
    Follows (pairing.At settled token) (pure value) (pure other) fun found other here there =>
      related found other ∧ pairing.Somewhere later here there := by
  rintro here there hat _ _ ⟨⟩
  exact ⟨other, there, rfl, h, hat.somewhere hlater⟩

theorem stays_pure {value : α} {other : β} (h : related value other) :
    pairing.Stays (pure value) (pure other) related := by
  rintro settled token here there hat _ _ ⟨⟩
  exact ⟨other, there, rfl, h, hat⟩

/-! ## Failing and choosing -/

section

variable {results : α → β → Cursor → Cursor → Prop} {other : Reading β}

/-- A parser that fails leaves nothing to show. -/
theorem follows_fail_at (line : Nat) : Follows before (Reading.failAt line) other results :=
  fun _ _ _ _ _ hrun => nomatch hrun

theorem follows_fail : Follows before Reading.fail other results :=
  fun _ _ _ _ _ hrun => nomatch hrun

theorem follows_fail_at_bind {line : Nat} {rest : γ → Reading α} :
    Follows before (Reading.failAt line >>= rest) other results :=
  fun _ _ _ _ _ hrun => nomatch hrun

theorem follows_fail_bind {rest : γ → Reading α} :
    Follows before (Reading.fail >>= rest) other results :=
  fun _ _ _ _ _ hrun => nomatch hrun

theorem follows_ite_iff {c c' : Prop} [Decidable c] [Decidable c'] {first first' : Reading α}
    {second second' : Reading β} (hsame : c ↔ c') (hyes : c → Follows before first second results)
    (hno : ¬c → Follows before first' second' results) :
    Follows before (if c then first else first') (if c' then second else second') results := by
  by_cases h : c
  · rw [if_pos h, if_pos (hsame.mp h)]
    exact hyes h
  · rw [if_neg h, if_neg (mt hsame.mpr h)]
    exact hno h

theorem follows_ite {c : Prop} [Decidable c] {first first' : Reading α} {second second' : Reading β}
    (hyes : c → Follows before first second results)
    (hno : ¬c → Follows before first' second' results) :
    Follows before (if c then first else first') (if c then second else second') results :=
  follows_ite_iff .rfl hyes hno

end

/-- A step that is only taken on a condition. -/
theorem follows_when_iff {c c' : Prop} [Decidable c] [Decidable c'] {first second : Reading Unit}
    {rest : Unit → Reading γ} {others : Unit → Reading δ} (hsame : c ↔ c')
    (h : pairing.Stays first second fun _ _ => True)
    (hrest : Follows (pairing.At settled token) (rest ()) (others ()) after) :
    Follows (pairing.At settled token) (if c then first >>= rest else rest ())
      (if c' then second >>= others else others ()) after :=
  follows_ite_iff hsame (fun _ => h.bind fun _ _ _ => hrest) fun _ => hrest

theorem follows_when {c : Prop} [Decidable c] {first second : Reading Unit}
    {rest : Unit → Reading γ} {others : Unit → Reading δ}
    (h : pairing.Stays first second fun _ _ => True)
    (hrest : Follows (pairing.At settled token) (rest ()) (others ()) after) :
    Follows (pairing.At settled token) (if c then first >>= rest else rest ())
      (if c then second >>= others else others ()) after :=
  follows_when_iff .rfl h hrest

/-- A part that is only read on a condition. -/
theorem follows_optional {c : Prop} [Decidable c] {rest : Reading γ} {others : Reading δ}
    (h : pairing.Keeps false later first second related)
    (hrest : ∀ settled token, Follows (pairing.At settled token) rest others after) :
    Follows (pairing.At settled token) (if c then first >>= fun _ => rest else rest)
      (if c then second >>= fun _ => others else others) after :=
  follows_ite (fun _ => h.bind fun _ _ _ _ => hrest _ _) fun _ => hrest _ _

/-- A parser that does something on a condition and is over. -/
theorem stays_when_iff {c c' : Prop} [Decidable c] [Decidable c'] {first second : Reading Unit}
    (hsame : c ↔ c') (h : pairing.Stays first second fun _ _ => True) :
    pairing.Stays (if c then first else pure ()) (if c' then second else pure ())
      fun _ _ => True :=
  fun settled token => follows_ite_iff hsame (fun _ => h settled token)
    fun _ => stays_pure trivial settled token

theorem stays_when {c : Prop} [Decidable c] {first second : Reading Unit}
    (h : pairing.Stays first second fun _ _ => True) :
    pairing.Stays (if c then first else pure ()) (if c then second else pure ())
      fun _ _ => True :=
  stays_when_iff .rfl h

/-! ## Looking at a token -/

theorem follows_current {rest : Token → Reading γ} {others : Token → Reading δ}
    (h : Follows (pairing.At settled token) (rest token) (others token) after) :
    Follows (pairing.At settled token) (Reading.current >>= rest) (Reading.current >>= others)
      after := by
  intro here there hat found here' hrun
  have hfirst : (rest here.lexeme.token).run here = .ok (found, here') := hrun
  have hsecond : (Reading.current >>= others).run there = (others there.lexeme.token).run there :=
    rfl
  rw [hat.token] at hfirst
  rw [hsecond, ← hat.lexeme.token, hat.token]
  exact h here there hat found here' hfirst

theorem follows_sees {sign : String} {rest : Bool → Reading γ} {others : Bool → Reading δ}
    (h : Follows (pairing.At settled token) (rest (token == .sign sign))
      (others (token == .sign sign)) after) :
    Follows (pairing.At settled token) (Reading.sees sign >>= rest) (Reading.sees sign >>= others)
      after := by
  unfold Reading.sees
  rw [bind_assoc, bind_assoc]
  exact follows_current h

theorem follows_sees_word {word : String} {rest : Bool → Reading γ} {others : Bool → Reading δ}
    (h : Follows (pairing.At settled token) (rest (token == .name word false))
      (others (token == .name word false)) after) :
    Follows (pairing.At settled token) (Reading.seesWord word >>= rest)
      (Reading.seesWord word >>= others) after := by
  unfold Reading.seesWord
  rw [bind_assoc, bind_assoc]
  exact follows_current h

theorem follows_line {rest : Nat → Reading γ} {others : Nat → Reading δ}
    (h : ∀ line line', Follows (pairing.At settled token) (rest line) (others line') after) :
    Follows (pairing.At settled token) (Reading.line >>= rest) (Reading.line >>= others) after :=
  fun here there hat => h here.lexeme.start.line there.lexeme.start.line here there hat

theorem follows_newline {rest : Bool → Reading γ} {others : Bool → Reading δ}
    (hsame : ∀ newline,
      Follows (pairing.At true token) (rest newline) (others newline) after)
    (hbrace : token = .sign "\x7d" →
      Follows (pairing.At true token) (rest true) (others false) after) :
    Follows (pairing.At true token) (Reading.newline >>= rest) (Reading.newline >>= others)
      after := by
  intro here there hat
  have hfirst : (Reading.newline >>= rest).run here = (rest here.lexeme.newline).run here := rfl
  have hsecond : (Reading.newline >>= others).run there =
      (others there.lexeme.newline).run there := rfl
  rw [hfirst, hsecond]
  by_cases hnewline : here.lexeme.newline = there.lexeme.newline
  · rw [← hnewline]
    exact hsame here.lexeme.newline here there hat
  · obtain ⟨hends, htoken⟩ := (hat.settles rfl).resolve_left hnewline
    rw [hends] at hnewline ⊢
    rw [Bool.eq_false_iff.mpr (Ne.symm hnewline)]
    exact hbrace (hat.token.symm.trans htoken) here there hat

/-- Behind a token that settles what follows, a look ahead shows the same in both texts. -/
theorem follows_peek {rest : Lexeme → Reading γ} {others : Lexeme → Reading δ}
    (htoken : token.settles = true)
    (h : ∀ lexeme lexeme', lexeme.token = lexeme'.token → lexeme.Settled lexeme' →
      Follows (pairing.At settled token) (rest lexeme) (others lexeme') after) :
    Follows (pairing.At settled token) (Reading.peek >>= rest) (Reading.peek >>= others) after := by
  intro here there hat found here' hrun
  rw [StateT.run_bind] at hrun ⊢
  obtain ⟨_, hpeek, hrest⟩ := except_bind_ok_iff.mp hrun
  obtain ⟨lexeme, hlex, ⟨⟩⟩ := except_bind_ok_iff.mp hpeek
  obtain ⟨lexeme', hlex', htwin, hsettled⟩ := pairing.same_token hat.lexeme.after hlex
  have hother : Reading.peek.run there = .ok (lexeme', there) :=
    except_bind_ok_iff.mpr ⟨lexeme', hlex', rfl⟩
  rw [hother]
  exact h lexeme lexeme' htwin.token (hsettled (hat.token ▸ htoken)) here there hat _ _ hrest

/-! ## Moving on -/

/-- Going on at places that belong together. -/
theorem Pairing.resume {here there : Cursor} {first second : Place}
    (hearly : here.early.isSome = there.early.isSome) (hseen : here.seen.Alike there.seen)
    (hplaces : pairing.places later first second) {here' : Cursor}
    (hrun : (Reading.resume first).run here = .ok ((), here')) :
    ∃ there', (Reading.resume second).run there = .ok ((), there') ∧
      pairing.Somewhere later here' there' := by
  obtain ⟨_, hread, ⟨⟩⟩ := except_bind_ok_iff.mp hrun
  obtain ⟨lexeme, hlex, ⟨⟩⟩ := except_bind_ok_iff.mp hread
  obtain ⟨lexeme', hlex', htwin, hsettled⟩ := pairing.same_token hplaces hlex
  have hread' : (liftM (lex second) : Reading Lexeme).run there = .ok (lexeme', there) :=
    except_bind_ok_iff.mpr ⟨lexeme', hlex', rfl⟩
  refine ⟨{ there with lexeme := lexeme' }, except_bind_ok_iff.mpr ⟨_, hread', rfl⟩, ?_⟩
  exact { token := rfl, lexeme := htwin, settles := hsettled, early := hearly, seen := hseen }

theorem Pairing.At.resume {here there : Cursor} {first second : Place}
    (hat : pairing.At settled token here there) (hplaces : pairing.places later first second)
    {here' : Cursor} (hrun : (Reading.resume first).run here = .ok ((), here')) :
    ∃ there', (Reading.resume second).run there = .ok ((), there') ∧
      pairing.Somewhere later here' there' :=
  pairing.resume hat.early hat.seen hplaces hrun

theorem follows_next {rest : Unit → Reading γ} {others : Unit → Reading δ}
    (h : ∀ next, Follows (pairing.At token.settles next) (rest ()) (others ()) after) :
    Follows (pairing.At settled token) (Reading.next >>= rest) (Reading.next >>= others) after := by
  intro here there hat found here' hrun
  rw [StateT.run_bind] at hrun ⊢
  obtain ⟨⟨⟨⟩, here₁⟩, hnext, hrest⟩ := except_bind_ok_iff.mp hrun
  obtain ⟨there₁, hnext', hat₁⟩ := hat.resume (hat.token ▸ hat.lexeme.after) hnext
  have hother : Reading.next.run there = .ok ((), there₁) := hnext'
  rw [hother]
  exact h _ here₁ there₁ hat₁ _ _ hrest

/-- A sign is passed over, if it comes next. -/
theorem follows_accepts {sign : String} {rest : Bool → Reading γ} {others : Bool → Reading δ}
    (hyes : ∀ next, Follows (pairing.At (Token.sign sign).settles next) (rest true) (others true)
      after)
    (hno : token ≠ .sign sign →
      Follows (pairing.At settled token) (rest false) (others false) after) :
    Follows (pairing.At settled token) (Reading.accepts sign >>= rest)
      (Reading.accepts sign >>= others) after := by
  unfold Reading.accepts
  rw [bind_assoc, bind_assoc]
  refine follows_sees ?_
  by_cases htoken : token = .sign sign
  · subst htoken
    rw [if_pos (by exact beq_self_eq_true _), bind_assoc, bind_assoc]
    exact follows_next hyes
  · rw [if_neg (by exact mt eq_of_beq htoken)]
    exact hno htoken

theorem follows_accepts_word {word : String} {rest : Bool → Reading γ} {others : Bool → Reading δ}
    (hyes : ∀ next, Follows (pairing.At true next) (rest true) (others true) after)
    (hno : token ≠ .name word false →
      Follows (pairing.At settled token) (rest false) (others false) after) :
    Follows (pairing.At settled token) (Reading.acceptsWord word >>= rest)
      (Reading.acceptsWord word >>= others) after := by
  unfold Reading.acceptsWord
  rw [bind_assoc, bind_assoc]
  refine follows_sees_word ?_
  by_cases htoken : token = .name word false
  · subst htoken
    rw [if_pos (by exact beq_self_eq_true _), bind_assoc, bind_assoc]
    exact follows_next hyes
  · rw [if_neg (by exact mt eq_of_beq htoken)]
    exact hno htoken

theorem follows_expect {sign : String} {rest : Unit → Reading γ} {others : Unit → Reading δ}
    (h : ∀ next, Follows (pairing.At (Token.sign sign).settles next) (rest ()) (others ()) after) :
    Follows (pairing.At settled token) (Reading.expect sign >>= rest)
      (Reading.expect sign >>= others) after := by
  unfold Reading.expect
  rw [bind_assoc, bind_assoc]
  exact follows_accepts h fun _ => follows_fail_bind

theorem follows_expect_word {word : String} {rest : Unit → Reading γ} {others : Unit → Reading δ}
    (h : ∀ next, Follows (pairing.At true next) (rest ()) (others ()) after) :
    Follows (pairing.At settled token) (Reading.expectWord word >>= rest)
      (Reading.expectWord word >>= others) after := by
  unfold Reading.expectWord
  rw [bind_assoc, bind_assoc]
  exact follows_accepts_word h fun _ => follows_fail_bind

theorem keeps_accepts (sign : String) :
    pairing.Keeps false false (Reading.accepts sign) (Reading.accepts sign) Eq := by
  intro token
  rw [← bind_pure (Reading.accepts sign)]
  exact follows_accepts (fun _ => follows_return rfl nofun) fun _ => follows_return rfl nofun

/-- A part of a list: a sign separates it from the next one, if the list does not end. -/
theorem follows_separator {close separator : String} {rest : Bool → Unit → Reading γ}
    {others : Bool → Unit → Reading δ}
    (h : ∀ isLast settled token,
      Follows (pairing.At settled token) (rest isLast ()) (others isLast ()) after) :
    Follows (pairing.At settled token)
      (Reading.sees close >>= fun isLast =>
        if isLast = true then rest isLast () else Reading.expect separator >>= rest isLast)
      (Reading.sees close >>= fun isLast =>
        if isLast = true then others isLast () else Reading.expect separator >>= others isLast)
      after :=
  follows_sees (follows_ite (fun _ => h _ _ _) fun _ => follows_expect fun _ => h _ _ _)

/-- Going on at a place. -/
theorem follows_resume {first second : Place} {rest : Unit → Reading γ}
    {others : Unit → Reading δ} (hplaces : pairing.places later first second)
    (h : ∀ next, Follows (pairing.At later next) (rest ()) (others ()) after) :
    Follows (pairing.At settled token) (Reading.resume first >>= rest)
      (Reading.resume second >>= others) after := by
  intro here there hat found here' hrun
  rw [StateT.run_bind] at hrun ⊢
  obtain ⟨⟨⟨⟩, here₁⟩, hresume, hrest⟩ := except_bind_ok_iff.mp hrun
  obtain ⟨there₁, hresume', hat₁⟩ := hat.resume hplaces hresume
  rw [hresume']
  exact h _ here₁ there₁ hat₁ _ _ hrest

/-! ## Templates -/

/-- A template is met only where templates are allowed for. -/
theorem follows_ticks {results : α → β → Cursor → Cursor → Prop} (h : pairing.ticks →
    Follows (pairing.At settled (.sign "\x60")) first second results) :
    Follows (pairing.At settled (.sign "\x60")) first second results :=
  fun here there hat => h (hat.lexeme.tick hat.token) here there hat

/-- The text of a template, from behind the token that comes next. -/
theorem follows_template_text (hticks : pairing.ticks) {rest : TemplateText → Reading γ}
    {others : TemplateText → Reading δ}
    (h : ∀ read read', read.opens = read'.opens → read.fault.isSome = read'.fault.isSome →
      pairing.places (!read.opens) read.after read'.after →
      Follows (pairing.At settled token) (rest read) (others read') after) :
    Follows (pairing.At settled token)
      (do
        let place := (← get).lexeme.after
        rest (← templateText (place.rest.length + 1) place.rest place.line none))
      (do
        let place := (← get).lexeme.after
        others (← templateText (place.rest.length + 1) place.rest place.line none)) after := by
  intro here there hat found here' hrun
  obtain ⟨_, hread, hrest⟩ := except_bind_ok_iff.mp hrun
  obtain ⟨read, htext, ⟨⟩⟩ := except_bind_ok_iff.mp hread
  obtain ⟨read', htext', hopens, hfault, hplaces⟩ := hat.lexeme.template hticks read htext
  obtain ⟨other, there', hother, hafter⟩ := h read read' hopens hfault hplaces here there hat _ _ hrest
  refine ⟨other, there', except_bind_ok_iff.mpr ⟨(read', there), ?_, hother⟩, hafter⟩
  exact except_bind_ok_iff.mpr ⟨read', htext', rfl⟩

/-! ## Faults and suspensions -/

theorem stays_report (line line' : Nat) :
    pairing.Stays (Reading.report line) (Reading.report line') fun _ _ => True := by
  rintro settled token here there hat _ _ ⟨⟩
  refine ⟨(), _, rfl, trivial, { hat with early := ?_ }⟩
  simp

theorem stays_report_any {line line' : Option Nat} (h : line.isSome = line'.isSome) :
    pairing.Stays (Reading.reportAny line) (Reading.reportAny line') fun _ _ => True := by
  cases line with
  | none =>
      cases line' with
      | none => exact stays_pure trivial
      | some line' => nomatch h
  | some line =>
      cases line' with
      | none => nomatch h
      | some line' => exact stays_report line line'

theorem Term.Alike.stays_settle {term term' : Term} (h : term.Alike term') :
    pairing.Stays term.settle term'.settle fun _ _ => True :=
  stays_report_any h.coverFault

/-- A fault that is there in both texts or in none. -/
theorem stays_fail_any {line line' : Option Nat} (h : line.isSome = line'.isSome) :
    pairing.Stays (line.forM fun line => (Reading.failAt line : Reading Unit))
      (line'.forM fun line => (Reading.failAt line : Reading Unit)) fun _ _ => True := by
  cases line with
  | none =>
      cases line' with
      | none => exact stays_pure trivial
      | some line' => nomatch h
  | some line => exact fun _ _ => follows_fail_at line

theorem stays_keep {seen seen' : Suspensions} (h : seen.Alike seen') :
    pairing.Stays (Reading.keep seen) (Reading.keep seen') fun _ _ => True := by
  rintro settled token here there hat _ _ ⟨⟩
  exact ⟨(), _, rfl, trivial, { hat with seen := hat.seen.merge h }⟩

/-- What a parser gives with the suspensions that it met. -/
abbrev WithSeen (related : α → β → Prop) (found : α × Suspensions) (other : β × Suspensions) :
    Prop :=
  related found.1 other.1 ∧ found.2.Alike other.2

/-- Running the parsers apart, from where no suspension is seen. -/
theorem Pairing.Leads.apart {start : Cursor → Cursor → Prop}
    (hstart : ∀ here there, before here there → here.seen.Alike there.seen ∧
      start { here with seen := {} } { there with seen := {} })
    (h : pairing.Leads start later first second related) :
    pairing.Leads before later (Reading.apart first) (Reading.apart second) (WithSeen related) := by
  intro here there hbefore found here' hrun
  obtain ⟨hseen, hapart⟩ := hstart here there hbefore
  obtain ⟨⟨value, here₁⟩, hfirst, ⟨⟩⟩ := except_bind_ok_iff.mp hrun
  obtain ⟨other, there₁, hsecond, hrelated, hat₁⟩ := h _ _ hapart value here₁ hfirst
  refine ⟨(other, there₁.seen), { there₁ with seen := there.seen },
    except_bind_ok_iff.mpr ⟨(other, there₁), hsecond, rfl⟩, ⟨hrelated, hat₁.seen⟩, ?_⟩
  exact { hat₁ with token := rfl, seen := hseen }

theorem Pairing.Keeps.apart (h : pairing.Keeps settled later first second related) :
    pairing.Keeps settled later (Reading.apart first) (Reading.apart second)
      (WithSeen related) :=
  fun token => Leads.apart (fun _ _ hat => ⟨hat.seen, { hat with seen := .rfl }⟩) (h token)

/-! ## Loops -/

/-- Both loops go on with related states, or both are done with related results. -/
def Pairing.Rounds (pairing : Pairing) (settled later : Bool) (states : σ → τ → Prop)
    (related : α → β → Prop) : Round σ α → Round τ β → Cursor → Cursor → Prop
  | .again state, .again state', here, there =>
      states state state' ∧ pairing.Somewhere settled here there
  | .done found, .done other, here, there =>
      related found other ∧ pairing.Somewhere later here there
  | _, _, _, _ => False

section

variable {turn : Bool}

theorem follows_again {states : σ → τ → Prop} {state : σ} {state' : τ} (h : states state state')
    (hturn : turn = true → settled = true) :
    Follows (pairing.At settled token) (pure (.again state)) (pure (.again state'))
      (pairing.Rounds turn later states related) := by
  rintro here there hat _ _ ⟨⟩
  exact ⟨.again state', there, rfl, h, hat.somewhere hturn⟩

theorem follows_done {states : σ → τ → Prop} {found : α} {other : β} (h : related found other)
    (hlater : later = true → settled = true) :
    Follows (pairing.At settled token) (pure (.done found)) (pure (.done other))
      (pairing.Rounds turn later states related) := by
  rintro here there hat _ _ ⟨⟩
  exact ⟨.done other, there, rfl, h, hat.somewhere hlater⟩

/-- A loop keeps step if each round does. The induction is on the bound. -/
theorem keeps_repeat {step : σ → Reading (Round σ α)} {step' : τ → Reading (Round τ β)}
    (states : σ → τ → Prop) (h : ∀ state state' token, states state state' →
      Follows (pairing.At turn token) (step state) (step' state')
        (pairing.Rounds turn later states related)) (bound : Nat) {state : σ} {state' : τ}
    (hstate : states state state') :
    pairing.Keeps turn later (Reading.repeatUpTo step bound state)
      (Reading.repeatUpTo step' bound state') related := by
  induction bound generalizing state state' with
  | zero => exact fun _ => follows_fail
  | succ bound ih =>
      intro token
      refine (h state state' token hstate).bind ?_
      rintro (state | found) (state' | other) here there hround
      · exact ih hround.1 here.lexeme.token here there hround.2
      · exact hround.elim
      · exact hround.elim
      · rintro found' here' ⟨⟩
        exact ⟨other, there, rfl, hround⟩

/-- A loop whose first round starts elsewhere. -/
theorem leads_repeat {step : σ → Reading (Round σ α)} {step' : τ → Reading (Round τ β)}
    (states : σ → τ → Prop) {bound : Nat} {state : σ} {state' : τ}
    (hfirst : Follows before (step state) (step' state')
      (pairing.Rounds turn later states related))
    (h : ∀ state state' token, states state state' →
      Follows (pairing.At turn token) (step state) (step' state')
        (pairing.Rounds turn later states related)) :
    pairing.Leads before later (Reading.repeatUpTo step bound state)
      (Reading.repeatUpTo step' bound state') related := by
  cases bound with
  | zero => exact follows_fail
  | succ bound =>
      refine hfirst.bind ?_
      rintro (state | found) (state' | other) here there hround
      · exact keeps_repeat states h bound hround.1 here.lexeme.token here there hround.2
      · exact hround.elim
      · exact hround.elim
      · rintro found' here' ⟨⟩
        exact ⟨other, there, rfl, hround⟩

/-- A loop that starts at any token. -/
theorem follows_repeat {step : σ → Reading (Round σ α)} {step' : τ → Reading (Round τ β)}
    (states : σ → τ → Prop) {bound : Nat} {state : σ} {state' : τ} (hstate : states state state')
    (h : ∀ state state' token, states state state' →
      Follows (pairing.At false token) (step state) (step' state')
        (pairing.Rounds false later states related)) :
    Follows (pairing.At settled token) (Reading.repeatUpTo step bound state)
      (Reading.repeatUpTo step' bound state') fun found other here there =>
        related found other ∧ pairing.Somewhere later here there :=
  (keeps_repeat states h bound hstate).of_unsettled token

end

/-- The same is done with the members of two lists. -/
theorem stays_for_each {members : α → β → Prop} {step : α → Reading Unit} {step' : β → Reading Unit}
    {list : List α} {list' : List β}
    (h : ∀ member member', members member member' →
      pairing.Stays (step member) (step' member') fun _ _ => True)
    (hlist : List.Forall₂ members list list') :
    pairing.Stays (list.forM step) (list'.forM step') fun _ _ => True := by
  induction hlist with
  | nil => exact stays_pure trivial
  | cons hmember hothers ih =>
      intro settled token
      change Follows _ (step _ >>= fun _ => List.forM _ step)
        (step' _ >>= fun _ => List.forM _ step') _
      exact (h _ _ hmember).bind fun _ _ _ => ih settled token

/-! ## Parts of a script -/

/-- The parts that a part holds are read in step. Behind an expression or a pattern the next token is
settled. -/
structure Pairing.KeepsParts (pairing : Pairing) (recur : Recur) : Prop where
  assignment (context : Context) : pairing.Keeps false true (recur (.assignment context))
    (recur (.assignment context)) Term.Alike
  unary (context : Context) : pairing.Keeps false true (recur (.unary context))
    (recur (.unary context)) Term.Alike
  operand (context : Context) (calls : Bool) : pairing.Keeps false true
    (recur (.operand context calls)) (recur (.operand context calls)) Term.Alike
  statement (context : Context) (place : StatementPlace) : pairing.Keeps false false
    (recur (.statement context place)) (recur (.statement context place)) Term.Alike
  binding (context : Context) : pairing.Keeps false true (recur (.binding context))
    (recur (.binding context)) Term.Alike

end TemplateBundle.Script
