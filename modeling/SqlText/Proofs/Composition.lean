import SqlText.Proofs.Carrying
import SqlText.Proofs.Pairing
import SqlText.Proofs.TemplateScan

/-!
# Templates one after another

A template with its arguments is written from left to right and never looked at again, so
two templates one after the other are written as the first and then the second. The cut
between them must not go through a marker. What is written for an argument depends on the
argument and its marker alone.
-/

namespace SqlText

namespace Template

variable {b : Builder} {strict : Bool}

/-- Plain text is written alike in one piece and letter by letter. -/
theorem perform_letters (b : Builder) (cs : List Char) :
    b.perform (cs.map fun c => .fixed (String.singleton c)) = pure (String.ofList cs) := by
  induction cs with
  | nil => rfl
  | cons c cs ih =>
    have happend := b.perform_append [.fixed (String.singleton c)]
      (cs.map fun c => .fixed (String.singleton c))
    rw [List.singleton_append] at happend
    rw [List.map_cons, happend, ih, Builder.perform_fixed, Outcome.pure_andThen,
      Outcome.pure_andThen, String.singleton_eq_ofList, ← String.ofList_append,
      List.singleton_append]

/-- Letters before other tokens are copied. -/
theorem paired_letters (cs : List Char) (ts : List Token) (args : List Value) :
    paired strict (cs.map (fun c => .literal (String.singleton c)) ++ ts) args =
      cs.map (fun c => .fixed (String.singleton c)) ++ paired strict ts args := by
  induction cs with
  | nil => rfl
  | cons c cs ih =>
    rw [List.map_cons, List.cons_append, paired, ih, List.map_cons, List.cons_append]

/-- Tokens have the same markers letter by letter. -/
theorem kinds_flatMap_letters (ts : List Token) : kinds (ts.flatMap Token.letters) = kinds ts := by
  induction ts with
  | nil => rfl
  | cons token ts ih =>
    rw [List.flatMap_cons, kinds_append, ih]
    cases token with
    | literal text =>
      have hnone : kinds (Token.literal text).letters = [] := by
        simp [kinds, Token.letters, Token.kind?]
      rw [hnone, List.nil_append, kinds_literal]
    | marker kind => rfl

/-- Tokens are written alike as they are and letter by letter. -/
theorem perform_paired_letters (b : Builder) (ts : List Token) (args : List Value) :
    b.perform (paired strict (ts.flatMap Token.letters) args) =
      b.perform (paired strict ts args) := by
  induction ts generalizing args with
  | nil => rfl
  | cons token ts ih =>
    cases token with
    | literal text =>
      rw [List.flatMap_cons, Token.letters, paired_letters, Builder.perform_append, perform_letters,
        ih, paired, ← List.singleton_append, Builder.perform_append, Builder.perform_fixed,
        String.ofList_toList]
    | marker kind =>
      rw [List.flatMap_cons, Token.letters, List.singleton_append]
      cases args with
      | nil => rfl
      | cons v args => rw [paired, paired, Builder.perform_append, ih, ← Builder.perform_append]

/-- Two templates have their markers one after the other. -/
theorem placeholderCount_append {t u : String} (hopen : ¬IsOpen t.toList) :
    placeholderCount (t ++ u) = placeholderCount t + placeholderCount u := by
  have hletters (s : String) : kinds (tokens s) = kinds (letters s.toList) :=
    (kinds_flatMap_letters _).symm
  simp only [placeholderCount_eq, hletters, String.toList_append, letters_append hopen,
    kinds_append, List.length_append]

/-- With an argument for every marker, a template is written as its pairs are. -/
theorem substitute_paired {template : String} {args : List Value}
    (h : args.length = placeholderCount template) :
    (b.substitute template args).result =
        (b.perform (paired b.strict (tokens template) args)).result ∧
      (b.substitute template args).reports =
        (b.perform (paired b.strict (tokens template) args)).reports := by
  rw [placeholderCount_eq] at h
  rw [Builder.substitute, Builder.result_finish, Builder.reports_finish, draft,
    fill_eq_paired h.symm]
  exact ⟨rfl, rfl⟩

/-- With an argument for every marker, two templates are written as the first and then the
second. -/
theorem perform_paired_append {t u : String} (hopen : ¬IsOpen t.toList) {args more : List Value}
    (h : args.length = placeholderCount t) :
    b.perform (paired strict (tokens (t ++ u)) (args ++ more)) =
      (b.perform (paired strict (tokens t) args)).andThen fun s =>
        (b.perform (paired strict (tokens u) more)).andThen fun s' => pure (s ++ s') := by
  have hletters (s : String) : (tokens s).flatMap Token.letters = letters s.toList := rfl
  have hkinds : (kinds (letters t.toList)).length = args.length := by
    rw [h, placeholderCount_eq, ← hletters, kinds_flatMap_letters]
  rw [← perform_paired_letters, hletters, String.toList_append, letters_append hopen,
    paired_append hkinds, Builder.perform_append, ← hletters, ← hletters, perform_paired_letters,
    perform_paired_letters]

/-- There is a marker after any smaller number of markers. -/
theorem exists_marker {ts : List Token} {n : Nat} (h : n < (kinds ts).length) :
    ∃ front kind back, ts = front ++ .marker kind :: back ∧ (kinds front).length = n := by
  induction ts generalizing n with
  | nil => simp [kinds] at h
  | cons token ts ih =>
    cases token with
    | literal text =>
      obtain ⟨front, kind, back, rfl, hfront⟩ := ih h
      exact ⟨.literal text :: front, kind, back, rfl, hfront⟩
    | marker kind =>
      cases n with
      | zero => exact ⟨[], kind, ts, rfl, rfl⟩
      | succ n =>
        obtain ⟨front, kind', back, rfl, hfront⟩ := ih (Nat.lt_of_succ_lt_succ h)
        exact ⟨.marker kind :: front, kind', back, rfl, congrArg Nat.succ hfront⟩

/-- A draft between two that are written is written, or fails, on its own. -/
theorem result_between {d e : Draft} {front back : String} (hd : b.Writes d front)
    (he : b.Writes e back) (middle : Draft) :
    (b.perform (d ++ (middle ++ e))).result =
      (b.perform middle).result.map fun text => front ++ text ++ back := by
  rw [Builder.perform_append, (Outcome.andThen_of_ok hd _).1, Builder.perform_append,
    Outcome.andThen_assoc]
  cases hmiddle : (b.perform middle).result with
  | error error => rw [(Outcome.andThen_of_error hmiddle _).1]; rfl
  | ok text =>
    rw [(Outcome.andThen_of_ok hmiddle _).1, Outcome.andThen_assoc,
      (Outcome.andThen_of_ok he _).1, Outcome.pure_andThen]
    exact congrArg Except.ok (String.append_assoc ..).symm

/-- In a template that is written, every argument stands at its own marker, written as it is
written alone; with another argument in its place, nothing else changes. -/
theorem argument_in_place {template : String} {before after : List Value}
    (hcount : before.length + 1 + after.length = placeholderCount template) {v : Value}
    {sql : String} (h : (b.substitute template (before ++ v :: after)).result = .ok sql) :
    ∃ kind front text back, (kinds (tokens template))[before.length]? = some kind ∧
      b.Writes (Literal.argument b.strict kind v) text ∧ sql = front ++ text ++ back ∧
      ∀ v', (b.substitute template (before ++ v' :: after)).result =
        (b.perform (Literal.argument b.strict kind v')).result.map fun text' =>
          front ++ text' ++ back := by
  have hlt : before.length < (kinds (tokens template)).length := by
    rw [← placeholderCount_eq]
    omega
  obtain ⟨front, kind, back, htokens, hfront⟩ := exists_marker hlt
  have hpaired (v : Value) : paired b.strict (tokens template) (before ++ v :: after) =
      paired b.strict front before ++
        (Literal.argument b.strict kind v ++ paired b.strict back after) := by
    rw [htokens, paired_append hfront, paired]
  have hresult (v : Value) : (b.substitute template (before ++ v :: after)).result =
      (b.perform (paired b.strict front before ++
        (Literal.argument b.strict kind v ++ paired b.strict back after))).result := by
    rw [(substitute_paired (by simpa [Nat.add_assoc, Nat.add_comm 1] using hcount)).1, hpaired]
  rw [hresult] at h
  obtain ⟨s, rest, hs, hrest, rfl⟩ := Builder.writes_append.mp h
  obtain ⟨text, u, htext, hu, rfl⟩ := Builder.writes_append.mp hrest
  refine ⟨kind, s, text, u, ?_, htext, (String.append_assoc ..).symm, fun v' => ?_⟩
  · rw [htokens, kinds_append, kinds_marker, List.getElem?_append_right (Nat.le_of_eq hfront),
      hfront, Nat.sub_self]
    rfl
  · rw [hresult v', result_between hs hu]

/-- Two templates, the first of which is not open at its end, with an argument for each of
their markers: the whole is written as the first and then the second, and the reports come
in this order; it fails where the first fails, with the first's error and reports, and
otherwise where the second fails. In any template every argument goes to the marker of its
own position, and only what is written for it there depends on it. -/
theorem substitute_append {b : Builder} {t₁ t₂ : String} {a₁ a₂ : List Value}
    (hopen : ¬IsOpen t₁.toList) (h₁ : a₁.length = placeholderCount t₁)
    (h₂ : a₂.length = placeholderCount t₂) :
    (match (b.substitute t₁ a₁).result, (b.substitute t₂ a₂).result with
      | .ok s, .ok u => (b.substitute (t₁ ++ t₂) (a₁ ++ a₂)).result = .ok (s ++ u) ∧
        (b.substitute (t₁ ++ t₂) (a₁ ++ a₂)).reports =
          (b.substitute t₁ a₁).reports ++ (b.substitute t₂ a₂).reports
      | .error e, _ => (b.substitute (t₁ ++ t₂) (a₁ ++ a₂)).result = .error e ∧
        (b.substitute (t₁ ++ t₂) (a₁ ++ a₂)).reports = (b.substitute t₁ a₁).reports
      | .ok _, .error e => (b.substitute (t₁ ++ t₂) (a₁ ++ a₂)).result = .error e ∧
        (b.substitute (t₁ ++ t₂) (a₁ ++ a₂)).reports =
          (b.substitute t₁ a₁).reports ++ (b.substitute t₂ a₂).reports) ∧
    ∀ (template : String) (before after : List Value) (v : Value) (sql : String),
      before.length + 1 + after.length = placeholderCount template →
      (b.substitute template (before ++ v :: after)).result = .ok sql →
      ∃ kind front text back, (kinds (tokens template))[before.length]? = some kind ∧
        b.Writes (Literal.argument b.strict kind v) text ∧ sql = front ++ text ++ back ∧
        ∀ v', (b.substitute template (before ++ v' :: after)).result =
          (b.perform (Literal.argument b.strict kind v')).result.map fun text' =>
            front ++ text' ++ back := by
  refine ⟨?_, fun template before after v sql hcount h => argument_in_place hcount h⟩
  have hcount : (a₁ ++ a₂).length = placeholderCount (t₁ ++ t₂) := by
    rw [placeholderCount_append hopen, List.length_append, h₁, h₂]
  obtain ⟨hresult₁, hreports₁⟩ := substitute_paired (b := b) h₁
  obtain ⟨hresult₂, hreports₂⟩ := substitute_paired (b := b) h₂
  obtain ⟨hresult, hreports⟩ := substitute_paired (b := b) hcount
  rw [perform_paired_append hopen h₁] at hresult hreports
  rw [hresult, hreports, hresult₁, hreports₁, hresult₂, hreports₂]
  generalize b.perform (paired b.strict (tokens t₁) a₁) = first
  generalize b.perform (paired b.strict (tokens t₂) a₂) = second
  cases hfirst : first.result with
  | error e => exact Outcome.andThen_of_error hfirst _
  | ok s =>
    rw [(Outcome.andThen_of_ok hfirst _).1, (Outcome.andThen_of_ok hfirst _).2]
    cases hsecond : second.result with
    | error e =>
      rw [(Outcome.andThen_of_error hsecond _).1, (Outcome.andThen_of_error hsecond _).2]
      exact ⟨rfl, rfl⟩
    | ok u =>
      rw [(Outcome.andThen_of_ok hsecond _).1, (Outcome.andThen_of_ok hsecond _).2]
      exact ⟨rfl, congrArg (first.reports ++ ·) (List.append_nil _)⟩

/-- A stray question mark, too many decimals and an argument full of markers, cut before what
looks like the end of a marker. -/
theorem substitute_append_stray_markers :
    let t₁ := "?5 ?99999999999f a = ?s "
    let t₂ := "f OR ?n = ?2f"
    ((⟨.mysql, true⟩ : Builder).substitute (t₁ ++ t₂)
      ([.str "?i?n"] ++ [.str "b", .int 7])).result =
        .ok "?5 ?99999999999f a = '?i?n' f OR `b` = 7.00" := by
  intro t₁ t₂
  have hopen : ¬IsOpen t₁.toList := by decide
  have h₁ : [Value.str "?i?n"].length = placeholderCount t₁ := by decide +kernel
  have h₂ : [Value.str "b", .int 7].length = placeholderCount t₂ := by decide +kernel
  have hfirst : ((⟨.mysql, true⟩ : Builder).substitute t₁ [.str "?i?n"]).result =
      .ok "?5 ?99999999999f a = '?i?n' " := by decide +kernel
  have hsecond : ((⟨.mysql, true⟩ : Builder).substitute t₂ [.str "b", .int 7]).result =
      .ok "f OR `b` = 7.00" := by decide +kernel
  have h := (substitute_append (b := ⟨.mysql, true⟩) hopen h₁ h₂).1
  rw [hfirst, hsecond] at h
  exact h.1

end Template

end SqlText
