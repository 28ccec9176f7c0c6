import SqlText.Fetch

/-!
# Sessions with a database

However many requests a builder hands to a database, each is handled alone: its template is
substituted, the statement goes out once, and the next answer is taken for it. A template
with a problem takes no answer, and a failure of the database is reported with the statement.
What holds of one request is carried along the whole session.
-/

namespace SqlText

/-- What is asked of a database, and how the answer is shaped. -/
inductive Form where
  /-- The number of rows that a statement changes. -/
  | affected
  /-- All rows of a query. -/
  | rows
  /-- The first row. -/
  | row
  /-- The first value of the first row. -/
  | value
  /-- The first value of every row. -/
  | column
  /-- The rows under the texts of an index column. -/
  | indexed (column : String)
  /-- The first other value of every row, under the texts of an index column. -/
  | indexedValues (column : String)

/-- A shaped answer. -/
inductive Fetched where
  /-- A number of rows. -/
  | affected (n : Nat)
  /-- Rows in order. -/
  | rows (rows : List Row)
  /-- A row, if there is one. -/
  | row (row : Option Row)
  /-- A value, if there is one. -/
  | value (v : Option Value)
  /-- Values in order. -/
  | column (values : List Value)
  /-- Rows under keys. -/
  | indexed (rows : Keyed Row)
  /-- Values under keys. -/
  | indexedValues (values : Keyed Value)

/-- The shape of the data that a database has answered. -/
def Form.shape (found : List Row) (changed : Nat) : Form → Except Error Fetched
  | .affected => .ok (.affected changed)
  | .rows => .ok (.rows found)
  | .row => .ok (.row found.head?)
  | .value => .ok (.value (found.head?.bind Row.first?))
  | .column => .ok (.column (Rows.column found))
  | .indexed index => (Rows.indexed id index found).map .indexed
  | .indexedValues index =>
    (Rows.indexed (fun r => (Row.firstBut? r index).getD .null) index found).map .indexedValues

/-- The shape of an answer; a failure is passed on as it is. -/
def Form.read (form : Form) : Answer → Except Error Fetched
  | .failure e => .error e
  | .data found changed => form.shape found changed

/-- A template with its arguments, and what is wanted of the answer. -/
structure Request where
  /-- What is wanted. -/
  form : Form
  /-- The template. -/
  template : String
  /-- The arguments. -/
  args : List Value

/-- The answer that a database gives next. -/
def Database.nextAnswer (db : Database) : Answer := db.answers.head?.getD (.data [] 0)

namespace Builder

/-- What a fetch gives, as one of the kinds of shaped answers. -/
def fetched {α : Type} (kind : α → Fetched) (run : Outcome α × Database) :
    Outcome Fetched × Database :=
  (⟨run.1.notices, run.1.result.map kind⟩, run.2)

/-- Serves one request. -/
def serve (b : Builder) (r : Request) (db : Database) : Outcome Fetched × Database :=
  match r.form with
  | .affected => fetched .affected (b.execute db r.template r.args)
  | .rows => fetched .rows (b.fetchRows db r.template r.args)
  | .row => fetched .row (b.fetchRow db r.template r.args)
  | .value => fetched .value (b.fetchOne db r.template r.args)
  | .column => fetched .column (b.fetchColumn db r.template r.args)
  | .indexed index => fetched .indexed (b.fetchIndexed index db r.template r.args)
  | .indexedValues index =>
    fetched .indexedValues (b.fetchIndexedValues index db r.template r.args)

/-- Serves requests one after another with one database. -/
def session (b : Builder) : List Request → Database → List (Outcome Fetched) × Database
  | [], db => ([], db)
  | r :: rs, db =>
    let (o, db) := b.serve r db
    let (os, db) := b.session rs db
    (o :: os, db)

/-- The statements of requests, where the templates have no problem. -/
def statements (b : Builder) (rs : List Request) : List String :=
  rs.filterMap fun r => (b.substitute r.template r.args).result.toOption

variable {b : Builder} {r : Request} {db : Database} {e : Error} {sql : String}

section Fetch

variable {α : Type} (stage : Stage) (read : Answer → Except Error α) (db : Database)
  {template : String} {args : List Value}

/-- A template with a problem: its error is returned, and the database stays as it is. -/
theorem fetch_of_error (h : (b.substitute template args).result = .error e) :
    b.fetch stage read db template args =
      (⟨(b.substitute template args).notices, .error e⟩, db) := by
  rw [fetch]
  simp only [h]

/-- A statement goes out once, and the next answer is for it. -/
theorem fetch_of_ok (h : (b.substitute template args).result = .ok sql) :
    (b.fetch stage read db template args).1.result = read db.nextAnswer ∧
      (b.fetch stage read db template args).1.reports = (b.substitute template args).reports ++
        (match read db.nextAnswer with
          | .error e => [⟨.connection, e.message, some sql⟩]
          | .ok _ => []) ∧
      (b.fetch stage read db template args).2 = ⟨db.answers.tail, db.received ++ [sql]⟩ := by
  have hrun : db.run sql = (db.nextAnswer, ⟨db.answers.tail, db.received ++ [sql]⟩) := rfl
  rw [fetch]
  simp only [h, hrun, true_and, and_true]
  rw [Outcome.reports, List.filterMap_append, List.filterMap_append]
  cases read db.nextAnswer <;> simp [Notice.report?, Outcome.reports]

end Fetch

/-- What a run for a request has to do. -/
structure Serves (b : Builder) (r : Request) (db : Database)
    (run : Outcome Fetched × Database) : Prop where
  /-- A template with a problem: its error is returned, and the database is left alone. -/
  of_error : ∀ e, (b.substitute r.template r.args).result = .error e →
    run.1.result = .error e ∧ run.1.reports = (b.substitute r.template r.args).reports ∧
      run.2 = db
  /-- Otherwise the statement goes out, and the next answer is read. A failure is reported
  with the statement, and nothing else is. -/
  of_ok : ∀ sql, (b.substitute r.template r.args).result = .ok sql →
    run.1.result = r.form.read db.nextAnswer ∧
      run.1.reports = (b.substitute r.template r.args).reports ++
        (match db.nextAnswer with
          | .failure e => [⟨.connection, e.message, some sql⟩]
          | .data .. => []) ∧
      run.2 = ⟨db.answers.tail, db.received ++ [sql]⟩

/-- A fetch serves a request when its result is finished as the form of the request says. -/
theorem serves_of_fetch {α : Type} {stage : Stage} {read : Answer → Except Error α}
    (finish : Except Error α → Except Error Fetched) (herror : ∀ e, finish (.error e) = .error e)
    (hfinish : ∀ answer, finish (read answer) = r.form.read answer)
    (hread : ∀ answer e, read answer = .error e ↔ answer = .failure e) :
    Serves b r db (⟨(b.fetch stage read db r.template r.args).1.notices,
      finish (b.fetch stage read db r.template r.args).1.result⟩,
      (b.fetch stage read db r.template r.args).2) where
  of_error e h := by
    rw [fetch_of_error stage read db h]
    exact ⟨herror e, rfl, rfl⟩
  of_ok sql h := by
    obtain ⟨hresult, hreports, hdb⟩ := fetch_of_ok stage read db h
    refine ⟨(congrArg finish hresult).trans (hfinish _), hreports.trans (congrArg _ ?_), hdb⟩
    cases hanswer : db.nextAnswer with
    | failure e => rw [(hread _ e).mpr rfl]
    | data found changed =>
      cases hfound : read (.data found changed) with
      | ok a => rfl
      | error e => cases (hread _ e).mp hfound

/-- Every request is served. -/
theorem serves (b : Builder) (r : Request) (db : Database) : Serves b r db (b.serve r db) := by
  obtain ⟨form, template, args⟩ := r
  have hrows (answer : Answer) (e : Error) : answer.rows = .error e ↔ answer = .failure e := by
    cases answer <;> simp [Answer.rows]
  have haffected (answer : Answer) (e : Error) :
      answer.affected = .error e ↔ answer = .failure e := by
    cases answer <;> simp [Answer.affected]
  cases form with
  | affected =>
    refine serves_of_fetch (fun x => x.map .affected) (fun _ => rfl) (fun answer => ?_) haffected
    cases answer <;> rfl
  | rows =>
    refine serves_of_fetch (fun x => x.map .rows) (fun _ => rfl) (fun answer => ?_) hrows
    cases answer <;> rfl
  | row =>
    refine serves_of_fetch (fun x => (x.bind fun found => .ok found.head?).map .row)
      (fun _ => rfl) (fun answer => ?_) hrows
    cases answer <;> rfl
  | value =>
    refine serves_of_fetch
      (fun x => (x.bind fun found => .ok (found.head?.bind Row.first?)).map .value)
      (fun _ => rfl) (fun answer => ?_) hrows
    cases answer <;> rfl
  | column =>
    refine serves_of_fetch (fun x => (x.bind fun found => .ok (Rows.column found)).map .column)
      (fun _ => rfl) (fun answer => ?_) hrows
    cases answer <;> rfl
  | indexed index =>
    refine serves_of_fetch (fun x => (x.bind (Rows.indexed id index)).map .indexed)
      (fun _ => rfl) (fun answer => ?_) hrows
    cases answer <;> rfl
  | indexedValues index =>
    refine serves_of_fetch (fun x => (x.bind (Rows.indexed
      (fun r => (Row.firstBut? r index).getD .null) index)).map .indexedValues)
      (fun _ => rfl) (fun answer => ?_) hrows
    cases answer <;> rfl

/-- Of two sessions one after the other the second goes on with the database of the first. -/
theorem session_append (b : Builder) (rs more : List Request) (db : Database) :
    b.session (rs ++ more) db = ((b.session rs db).1 ++ (b.session more (b.session rs db).2).1,
      (b.session more (b.session rs db).2).2) := by
  induction rs generalizing db with
  | nil => rfl
  | cons r rs ih => simp only [List.cons_append, session, ih]

/-- Every request has an outcome. -/
theorem length_session (b : Builder) (rs : List Request) (db : Database) :
    (b.session rs db).1.length = rs.length := by
  induction rs generalizing db with
  | nil => rfl
  | cons r rs ih => simp only [session, List.length_cons, ih]

/-- A session sends the statements of its requests, in order, and takes an answer for each. -/
theorem database_session (b : Builder) (rs : List Request) (db : Database) :
    (b.session rs db).2 =
      ⟨db.answers.drop (b.statements rs).length, db.received ++ b.statements rs⟩ := by
  induction rs generalizing db with
  | nil => simp [session, statements]
  | cons r rs ih =>
    simp only [session, ih]
    cases h : (b.substitute r.template r.args).result with
    | error e =>
      have hstatements : b.statements (r :: rs) = b.statements rs := by
        simp [statements, h, Except.toOption]
      rw [((serves b r db).of_error e h).2.2, hstatements]
    | ok sql =>
      have hstatements : b.statements (r :: rs) = sql :: b.statements rs := by
        simp [statements, h, Except.toOption]
      rw [((serves b r db).of_ok sql h).2.2, hstatements]
      simp [List.append_assoc]

end Builder

/-- Rows that cannot be put under an index column lack it. -/
theorem Rows.notFound_of_indexed {α : Type} {keep : Row → α} {index : String}
    {found : List Row} {e : Error} (h : Rows.indexed keep index found = .error e) :
    ∃ message, e = .notFound message := by
  unfold Rows.indexed at h
  generalize ([] : Keyed α) = start at h
  induction found generalizing start with
  | nil => cases h
  | cons r found ih =>
    rw [List.foldlM_cons] at h
    cases hkey : Row.key r index with
    | ok key =>
      rw [hkey] at h
      exact ih _ h
    | error found =>
      rw [hkey] at h
      cases h
      unfold Row.key at hkey
      split at hkey
      · cases hkey
      · cases hkey
        exact ⟨_, rfl⟩

/-- Data that cannot be shaped lacks the index column. -/
theorem Form.notFound_of_shape {form : Form} {found : List Row} {changed : Nat} {e : Error}
    (h : form.shape found changed = .error e) : ∃ message, e = .notFound message := by
  have hindexed {α : Type} {kind : Keyed α → Fetched} {rows : Except Error (Keyed α)}
      (h : rows.map kind = .error e) : rows = .error e := by
    cases rows with
    | error _ => cases h; rfl
    | ok _ => cases h
  cases form with
  | affected | rows | row | value | column => cases h
  | indexed index | indexedValues index => exact Rows.notFound_of_indexed (hindexed h)

namespace Builder

/-- In a session, the database receives the statements of the requests whose templates have
no problem, once each and in order. A request whose template has a problem gets that error and
leaves the database alone. Any other request sends its statement and gets the next answer: a
failure is returned as it is and reported once more, as a failed connection with the statement;
data is shaped, and even where it lacks the index column nothing more is reported. -/
theorem session_trace (b : Builder) (db : Database) :
    (∀ rs, (b.session rs db).1.length = rs.length ∧
      (b.session rs db).2.received = db.received ++
        rs.filterMap fun r => (b.substitute r.template r.args).result.toOption) ∧
    ∀ (before after : List Request) (r : Request),
      let text := b.substitute r.template r.args
      let sent := (b.session before db).2
      ∃ o, (b.session (before ++ r :: after) db).1[before.length]? = some o ∧
        match text.result with
        | .error e => o.result = .error e ∧ o.reports = text.reports ∧
          (b.session (before ++ [r]) db).2 = sent
        | .ok sql => (b.session (before ++ [r]) db).2.received = sent.received ++ [sql] ∧
          match db.answers[(b.statements before).length]?.getD (.data [] 0) with
          | .failure e => o.result = .error e ∧
            o.reports = text.reports ++ [⟨.connection, e.message, some sql⟩]
          | .data found changed => o.result = r.form.shape found changed ∧
            o.reports = text.reports ∧
            ∀ e, o.result = .error e → ∃ message, e = .notFound message := by
  refine ⟨fun rs => ⟨length_session b rs db, by rw [database_session]; rfl⟩, ?_⟩
  intro before after r text sent
  have hsent : sent.nextAnswer =
      db.answers[(b.statements before).length]?.getD (.data [] 0) := by
    simp only [sent, database_session, Database.nextAnswer, List.head?_drop]
  have hlater : (b.session (before ++ [r]) db).2 = (b.serve r sent).2 := by
    rw [session_append]
    rfl
  refine ⟨(b.serve r sent).1, ?_, ?_⟩
  · have hlength := length_session b before db
    rw [session_append, List.getElem?_append_right (by omega), hlength, Nat.sub_self]
    rfl
  · rw [hlater, ← hsent]
    cases htext : text.result with
    | error e => exact (serves b r sent).of_error e htext
    | ok sql =>
      obtain ⟨hresult, hreports, hdb⟩ := (serves b r sent).of_ok sql htext
      refine ⟨congrArg Database.received hdb, ?_⟩
      cases hanswer : sent.nextAnswer with
      | failure e =>
        rw [hanswer] at hresult hreports
        exact ⟨hresult, hreports⟩
      | data found changed =>
        rw [hanswer] at hresult hreports
        refine ⟨hresult, hreports.trans (List.append_nil _), fun e he => ?_⟩
        exact Form.notFound_of_shape (hresult.symm.trans he)

end Builder

end SqlText
