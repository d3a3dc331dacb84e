import PolarBear.Lib.Redaction
import PolarBear.Py.Builtins
import PolarBear.Py.CallArgs
import PolarBear.Utils.WrappedFunction

/-!
# `wrap_exception`

A method that raises is reported with the arguments of the call: they are bound to the
method's parameters, `self` and `context` are taken out, and so is every parameter whose
name contains `_pass`. The keywords that the method collects are one parameter, a
dictionary that is kept or dropped as a whole: exactly where all keywords in it are to be
treated as the parameter itself is, the report says everything but the passwords. A
keyword `function` or `func` is in the way of the report itself, and so is a closure that
leads `get_wrapped_function` to another function than the method (`reports_iff`).
-/

namespace PolarBear.Utils

open Redaction

variable {φ α β ε : Type}

/-- A call of the wrapper, which binds `self` and `context` itself. -/
structure Call (α : Type) where
  self : α
  context : α
  args : List α
  kw : List (String × α)
  nodup : (Dict.keys kw).Nodup
  bound : "self" ∉ Dict.keys kw ∧ "context" ∉ Dict.keys kw

def Call.positional (c : Call α) : List α := c.self :: c.context :: c.args

/-- What the wrapper asks of a function. -/
structure Functions (φ α : Type) where
  closure : φ → List (Cell φ)
  argspec : φ → Py.Signature α
  name : φ → String

/-- `"_pass" in k`. -/
def isPass (k : String) : Bool := Py.isInText "_pass" k

/-- `_cleanse_dict`. -/
def cleanseDict (original : List (String × β)) : List (String × β) :=
  original.filter (fun e => !isPass e.1)

/-- `d.pop(k, None)`. -/
def pop (k : String) (d : List (String × β)) : List (String × β) := d.filter (fun e => e.1 ≠ k)

variable (functions : Functions φ α)

/-- `_get_call_dict`, on fuel. A `TypeError` is `none`: where the keywords of the call meet the
parameter `function`, where no function is found and where the arguments cannot be bound. -/
def getCallDict (fuel : Nat) (function : φ) (c : Call α) :
    Option (Option (List (String × Py.Bound α))) :=
  if "function" ∈ Dict.keys c.kw then some none
  else (getWrappedFunction functions.closure fuel function).map fun wrappedFunc =>
    wrappedFunc.bind fun wrappedFunc =>
      ((functions.argspec wrappedFunc).getcallargs c.positional c.kw).map fun callDict =>
        cleanseDict (pop "context" (pop "self" callDict))

/-- The legacy notification. -/
structure Notification (ε α : Type) where
  context : α
  functionName : String
  exception : ε
  args : List (String × Py.Bound α)

/-- What the wrapper raises: the method's exception again, or its own error. -/
inductive Raised (ε : Type) where
  | again (ex : ε)
  | typeError

/-- `wrapped`, with what it notifies. -/
def wrapped (notifier : Bool) (fuel : Nat) (run : φ → Call α → Except ε β) (f : φ) (c : Call α) :
    Option (Except (Raised ε) β × List (Notification ε α)) :=
  match run f c with
  | .ok result => some (.ok result, [])
  | .error ex =>
    if notifier then
      (getCallDict functions fuel f c).map fun
        | none => (.error .typeError, [])
        | some callDict => (.error (.again ex), [⟨c.context, functions.name f, ex, callDict⟩])
    else some (.error (.again ex), [])

/-! ## What is to be reported -/

variable (s : Py.Signature α)

/-- The arguments that go to a parameter: by position, by keyword, or by default. -/
inductive Given (c : Call α) : String → α → Prop
  | position {k : String} {v : α} : (k, v) ∈ s.args.zip c.positional → Given c k v
  | keyword {k : String} {v : α} : k ∈ s.args → (k, v) ∈ c.kw → Given c k v
  | default {k : String} {v : α} : (k, v) ∈ s.defaulted →
      k ∉ Dict.keys (s.args.zip c.positional) → k ∉ Dict.keys c.kw → Given c k v

/-- A name that is to be reported. -/
def Visible (k : String) : Prop := isPass k = false ∧ k ≠ "self" ∧ k ≠ "context"

/-- Every argument with a visible name is there with its value, the further ones in a tuple and
the collected keywords in a dictionary. -/
structure Shows (c : Call α) (args : List (String × Py.Bound α)) : Prop where
  params : ∀ k v, Given s c k v → Visible k → (k, .value v) ∈ args
  further : ∀ k, s.varargs = some k → Visible k → (k, .tuple (s.extra c.positional)) ∈ args
  collected : ∀ k v, (k, v) ∈ c.kw → k ∉ s.args → Visible k →
    ∃ w d, (w, .dict d) ∈ args ∧ (k, v) ∈ d

/-- The calls differ in the values of arguments whose name contains `_pass`, and nowhere else. -/
structure DifferInPasses (c c' : Call α) : Prop where
  positional : LookSame isPass (s.args.zip c.positional) (s.args.zip c'.positional)
  length : (s.extra c'.positional).length = (s.extra c.positional).length
  extra : s.extra c'.positional = s.extra c.positional ∨ ∃ k, s.varargs = some k ∧ isPass k = true
  kw : LookSame isPass c.kw c'.kw

/-- Whatever the method does: if the call fails, one notification is sent; it shows all arguments
but `self`, `context` and the passwords, and a failing call with other passwords sends the
same arguments. -/
def Reports (ε β : Type) (fuel : Nat) (f : φ) (c : Call α) : Prop :=
  ∀ (run : φ → Call α → Except ε β) (ex : ε), run f c = .error ex → ∃ sent,
    wrapped functions true fuel run f c = some (.error (.again ex), [sent]) ∧
    Shows s c sent.args ∧
    ∀ c' ex', DifferInPasses s c c' → run f c' = .error ex' → ∃ sent',
      wrapped functions true fuel run f c' = some (.error (.again ex'), [sent']) ∧
      sent'.args = sent.args

/-- The keywords that are collected are passwords exactly if the collection is called one, and
none is called as a parameter on the way to the report. -/
def Reportable (c : Call α) : Prop :=
  ("function" ∉ Dict.keys c.kw ∧ "func" ∉ Dict.keys c.kw) ∧
  ∀ w, s.varkw = some w → ∀ k ∈ Dict.keys (s.collected c.kw), isPass k = isPass w

variable {functions s} {c c' : Call α} {f g : φ}

/-! ## The report -/

variable (s) in
/-- What is notified of a method with this signature. -/
def report (c : Call α) : Option (List (String × Py.Bound α)) :=
  if "function" ∈ Dict.keys c.kw then none
  else (s.getcallargs c.positional c.kw).map fun callDict =>
    cleanseDict (pop "context" (pop "self" callDict))

theorem getCallDict_eq {fuel : Nat}
    (hfound : getWrappedFunction functions.closure fuel f = some (some g)) (c : Call α) :
    getCallDict functions fuel f c = some (report (functions.argspec g) c) := by
  unfold getCallDict report
  rw [hfound]
  split <;> rfl

/-- One notification is sent exactly if there is something to report. -/
theorem wrapped_sends_iff {fuel : Nat}
    (hfound : getWrappedFunction functions.closure fuel f = some (some g))
    {run : φ → Call α → Except ε β} {ex : ε} (hfails : run f c = .error ex)
    {sent : Notification ε α} :
    wrapped functions true fuel run f c = some (.error (.again ex), [sent]) ↔
      report (functions.argspec g) c = some sent.args ∧
        sent = ⟨c.context, functions.name f, ex, sent.args⟩ := by
  unfold wrapped
  rw [hfails]
  dsimp only
  rw [if_pos rfl, getCallDict_eq hfound]
  cases report (functions.argspec g) c with
  | none => exact iff_of_false (fun h => nomatch h) (fun h => nomatch h.1)
  | some callDict =>
    constructor
    · intro h
      cases h
      exact ⟨rfl, rfl⟩
    · rintro ⟨hargs, hsent⟩
      rw [hsent, Option.some.inj hargs]
      rfl

theorem report_of_accepts (haccepts : s.Accepts c.positional c.kw)
    (hnames : "function" ∉ Dict.keys c.kw ∧ "func" ∉ Dict.keys c.kw) :
    report s c = some (cleanseDict (pop "context" (pop "self" (s.bind c.positional c.kw)))) := by
  unfold report Py.Signature.getcallargs
  rw [if_neg hnames.1, if_neg hnames.2, if_pos haccepts]
  rfl

theorem names_of_report {args : List (String × Py.Bound α)} (h : report s c = some args) :
    "function" ∉ Dict.keys c.kw ∧ "func" ∉ Dict.keys c.kw := by
  unfold report Py.Signature.getcallargs at h
  split at h
  next => cases h
  next hfunction =>
    split at h
    next => cases h
    next hfunc => exact ⟨hfunction, hfunc⟩

theorem mem_cleansed {d : List (String × β)} {e : String × β} :
    e ∈ cleanseDict (pop "context" (pop "self" d)) ↔ e ∈ d ∧ Visible e.1 := by
  unfold cleanseDict pop Visible
  simp only [List.mem_filter, decide_eq_true_eq, Bool.not_eq_true']
  constructor
  · rintro ⟨⟨⟨hmem, hself⟩, hcontext⟩, hpass⟩
    exact ⟨hmem, hpass, hself, hcontext⟩
  · rintro ⟨hmem, hpass, hself, hcontext⟩
    exact ⟨⟨⟨hmem, hself⟩, hcontext⟩, hpass⟩

/-- What is cleansed away makes no difference. -/
theorem cleansed_congr {d d' : List (String × β)} (h : cleanseDict d' = cleanseDict d) :
    cleanseDict (pop "context" (pop "self" d')) = cleanseDict (pop "context" (pop "self" d)) := by
  have hswap : ∀ (k : String) (d : List (String × β)),
      cleanseDict (pop k d) = pop k (cleanseDict d) := by
    intro k d
    unfold cleanseDict pop
    rw [List.filter_filter, List.filter_filter]
    exact List.filter_congr (fun e _ => Bool.and_comm ..)
  rw [hswap, hswap, hswap, hswap, h]

/-! ## Two calls -/

theorem DifferInPasses.given (h : DifferInPasses s c c') :
    LookSame isPass (s.given c.positional c.kw) (s.given c'.positional c'.kw) :=
  (h.positional.append h.kw).append (LookSame.refl s.defaulted)

theorem DifferInPasses.collected (h : DifferInPasses s c c') :
    LookSame isPass (s.collected c.kw) (s.collected c'.kw) :=
  h.kw.filter (fun k => decide (k ∉ s.args))

/-- Which calls can be made does not depend on the values. -/
theorem DifferInPasses.accepts (h : DifferInPasses s c c')
    (haccepts : s.Accepts c.positional c.kw) : s.Accepts c'.positional c'.kw := by
  obtain ⟨honce, hfurther, hkeywords, hvalues⟩ := haccepts
  refine ⟨?_, ?_, ?_, ?_⟩
  · rw [h.positional.keys_eq, h.kw.keys_eq]
    exact honce
  · rw [← List.length_eq_zero_iff, h.length, List.length_eq_zero_iff]
    exact hfurther
  · refine hkeywords.imp_left (fun hnone => ?_)
    have hsame := h.collected
    rw [hnone] at hsame
    exact List.forall₂_nil_left_iff.mp hsame
  · rw [h.given.keys_eq]
    exact hvalues

/-- With the collected keywords treated as the collection is, the two calls bind the same but for
what is cleansed away. -/
theorem DifferInPasses.cleanse_bind (h : DifferInPasses s c c')
    (hcollected : ∀ w, s.varkw = some w → ∀ k ∈ Dict.keys (s.collected c.kw), isPass k = isPass w) :
    cleanseDict (s.bind c'.positional c'.kw) = cleanseDict (s.bind c.positional c.kw) := by
  unfold cleanseDict Py.Signature.bind
  simp only [List.filter_append]
  have hkept : ∀ (k : String) (b : Py.Bound α), isPass k = true →
      [(k, b)].filter (fun e => !isPass e.1) = [] := by
    intro k b hk
    rw [List.filter_cons_of_neg (by rw [hk]; exact Bool.false_ne_true), List.filter_nil]
  congr 1
  · congr 1
    · rw [List.filter_filterMap, List.filter_filterMap]
      refine List.filterMap_congr (fun k _ => ?_)
      by_cases hk : isPass k = true
      · cases (s.given c.positional c.kw).lookup k <;>
          cases (s.given c'.positional c'.kw).lookup k <;> simp [Option.filter, hk]
      · rw [h.given.lookup_eq (Bool.eq_false_iff.mpr hk)]
    · cases hvarargs : s.varargs with
      | none => rfl
      | some k =>
        rcases h.extra with heq | ⟨k', hk', hpass⟩
        · rw [heq]
        · obtain rfl : k = k' := Option.some.inj (hvarargs.symm.trans hk')
          exact (hkept k _ hpass).trans (hkept k _ hpass).symm
  · cases hvarkw : s.varkw with
    | none => rfl
    | some w =>
      by_cases hw : isPass w = true
      · exact (hkept w _ hw).trans (hkept w _ hw).symm
      · rw [h.collected.eq (fun k hk => (hcollected w hvarkw k hk).trans
          (Bool.eq_false_iff.mpr hw))]

/-! ## The report of one call -/

/-- A parameter's argument is what is bound to it. -/
theorem Given.bound {k : String} {v : α} (h : Given s c k v)
    (haccepts : s.Accepts c.positional c.kw) : (k, .value v) ∈ s.bind c.positional c.kw := by
  rw [Py.Signature.mem_bind_value]
  cases h with
  | position h =>
    exact ⟨(List.of_mem_zip h).1, Py.Signature.lookup_given_position h⟩
  | keyword hk h =>
    have hposition : k ∉ Dict.keys (s.args.zip c.positional) := fun hmem =>
      haccepts.1 k hmem (List.mem_map.mpr ⟨(k, v), h, rfl⟩)
    exact ⟨hk, Py.Signature.lookup_given_keyword c.nodup hposition h⟩
  | default h hposition hkeyword =>
    exact ⟨List.mem_of_mem_drop (List.of_mem_zip h).1,
      Py.Signature.lookup_given_default hposition hkeyword h⟩

theorem mem_collected {k : String} {v : α} {named : List (String × α)} :
    (k, v) ∈ s.collected named ↔ (k, v) ∈ named ∧ k ∉ s.args := by
  unfold Py.Signature.collected
  rw [List.mem_filter, decide_eq_true_eq]

/-- `**kwargs` has a name of its own. -/
theorem varkw_notMem_args {w : String} (hw : s.varkw = some w) : w ∉ s.args := by
  have hnodup := s.nodup
  rw [List.append_assoc, hw] at hnodup
  intro hmem
  exact (List.nodup_append.mp hnodup).2.2 w hmem w
    (List.mem_append_right _ (List.mem_singleton_self w)) rfl

/-- With the collected keywords treated as the collection is, nothing visible is missing. -/
theorem shows_of_reportable (hself : ∃ rest, s.args = "self" :: "context" :: rest)
    (haccepts : s.Accepts c.positional c.kw) (hc : Reportable s c) :
    Shows s c (cleanseDict (pop "context" (pop "self" (s.bind c.positional c.kw)))) := by
  refine ⟨fun k v hgiven hk => ?_, fun k hvarargs hk => ?_, fun k v hkw hargs hk => ?_⟩
  · exact mem_cleansed.mpr ⟨hgiven.bound haccepts, hk⟩
  · exact mem_cleansed.mpr ⟨Py.Signature.mem_bind_tuple.mpr ⟨hvarargs, rfl⟩, hk⟩
  · have hmem : (k, v) ∈ s.collected c.kw := mem_collected.mpr ⟨hkw, hargs⟩
    obtain ⟨w, hw⟩ : ∃ w, s.varkw = some w := Option.isSome_iff_exists.mp
      (haccepts.2.2.1.resolve_left (List.ne_nil_of_mem hmem))
    have hpass : isPass w = false :=
      (hc.2 w hw k (List.mem_map.mpr ⟨(k, v), hmem, rfl⟩)).symm.trans hk.1
    obtain ⟨rest, hrest⟩ := hself
    have hw' := varkw_notMem_args hw
    rw [hrest, List.mem_cons, List.mem_cons, not_or, not_or] at hw'
    exact ⟨w, s.collected c.kw, mem_cleansed.mpr
      ⟨Py.Signature.mem_bind_dict.mpr ⟨hw, rfl⟩, hpass, hw'.1, hw'.2.1⟩, hmem⟩

/-! ## Which calls are reported as they should be -/

/-- The call with another value for a keyword. -/
def Call.setKw (c : Call α) {k : String} (hk : k ∈ Dict.keys c.kw) (v : α) : Call α :=
  { c with
    kw := Dict.set k v c.kw
    nodup := Dict.nodup_keys_set k v c.nodup
    bound := by rw [Dict.keys_set v hk]; exact c.bound }

theorem differInPasses_setKw {k : String} (hk : k ∈ Dict.keys c.kw) (hpass : isPass k = true)
    (v : α) : DifferInPasses s c (c.setKw hk v) where
  positional := LookSame.refl _
  length := rfl
  extra := .inl rfl
  kw := lookSame_set hpass v hk

/-- If the report of the call does not change with the passwords, every collected password is in
a collection that is called one. -/
theorem isPass_varkw [Nontrivial α] (hself : ∃ rest, s.args = "self" :: "context" :: rest)
    {args : List (String × Py.Bound α)}
    (hargs : args = cleanseDict (pop "context" (pop "self" (s.bind c.positional c.kw))))
    (hsame : ∀ c', DifferInPasses s c c' → s.Accepts c'.positional c'.kw →
      cleanseDict (pop "context" (pop "self" (s.bind c'.positional c'.kw))) = args)
    (haccepts : s.Accepts c.positional c.kw)
    {w k : String} {v : α} (hw : s.varkw = some w) (hmem : (k, v) ∈ s.collected c.kw)
    (hpass : isPass k = true) : isPass w = true := by
  by_contra hvisible
  obtain ⟨v', hne⟩ := exists_ne v
  have hkw := (mem_collected.mp hmem).1
  have hk : k ∈ Dict.keys c.kw := List.mem_map.mpr ⟨(k, v), hkw, rfl⟩
  have hdiffer := differInPasses_setKw (s := s) hk hpass v'
  have heq := hsame _ hdiffer (hdiffer.accepts haccepts)
  obtain ⟨rest, hrest⟩ := hself
  have hw' := varkw_notMem_args hw
  rw [hrest, List.mem_cons, List.mem_cons, not_or, not_or] at hw'
  have hthere : (w, Py.Bound.dict (s.collected (Dict.set k v' c.kw))) ∈ args := by
    rw [← heq]
    exact mem_cleansed.mpr ⟨Py.Signature.mem_bind_dict.mpr ⟨hw, rfl⟩,
      Bool.eq_false_iff.mpr hvisible, hw'.1, hw'.2.1⟩
  rw [hargs] at hthere
  have hcollected := (Py.Signature.mem_bind_dict.mp (mem_cleansed.mp hthere).1).2
  -- the other password is not among the keywords of the call
  have hset : (k, v') ∈ Dict.set k v' c.kw := Dict.mem_of_lookup (Dict.lookup_set_self k v' c.kw)
  have hboth : (k, v') ∈ s.collected c.kw := by
    rw [hcollected]
    exact mem_collected.mpr ⟨hset, (mem_collected.mp hmem).2⟩
  have hlookup := Dict.lookup_of_mem c.nodup (mem_collected.mp hboth).1
  rw [Dict.lookup_of_mem c.nodup hkw] at hlookup
  exact hne (Option.some.inj hlookup).symm

/-- If every visible argument is in the report, every visible keyword that is collected is in a
collection with a visible name. -/
theorem isPass_of_shows
    (hshows : Shows s c (cleanseDict (pop "context" (pop "self" (s.bind c.positional c.kw)))))
    {w k : String} {v : α} (hw : s.varkw = some w) (hmem : (k, v) ∈ s.collected c.kw)
    (hvisible : isPass k = false) : isPass w = false := by
  obtain ⟨hkw, hargs⟩ := mem_collected.mp hmem
  have hk : k ∈ Dict.keys c.kw := List.mem_map.mpr ⟨(k, v), hkw, rfl⟩
  obtain ⟨w', d, hthere, -⟩ := hshows.collected k v hkw hargs
    ⟨hvisible, fun h => c.bound.1 (h ▸ hk), fun h => c.bound.2 (h ▸ hk)⟩
  obtain ⟨hmem', hw'⟩ := mem_cleansed.mp hthere
  obtain rfl : w = w' :=
    Option.some.inj (hw.symm.trans (Py.Signature.mem_bind_dict.mp hmem').1)
  exact hw'.1

variable (β ε functions) in
/-- **Where the method is found**: whatever it raises, the notification shows every visible
argument and is the same whatever the passwords are, if and only if the call is `Reportable`. -/
theorem reports_iff_of_finds [Nontrivial α] [Inhabited ε] (hfinds : Finds functions.closure f g)
    (hself : ∃ rest, (functions.argspec g).args = "self" :: "context" :: rest) :
    ∃ n, ∀ fuel, n ≤ fuel → ∀ c, (functions.argspec g).Accepts c.positional c.kw →
      (Reports functions (functions.argspec g) ε β fuel f c ↔
        Reportable (functions.argspec g) c) := by
  obtain ⟨n, hn⟩ := hfinds
  refine ⟨n, fun fuel hfuel c haccepts => ?_⟩
  have hfound := hn fuel hfuel
  constructor
  · intro hreports
    obtain ⟨sent, hsent, hshows, hsame⟩ := hreports (fun _ _ => .error default) default rfl
    have hreport := ((wrapped_sends_iff hfound rfl).mp hsent).1
    have hnames := names_of_report hreport
    have hargs := Option.some.inj (hreport.symm.trans (report_of_accepts haccepts hnames))
    refine ⟨hnames, fun w hw k hk => ?_⟩
    obtain ⟨⟨k, v⟩, hmem, rfl⟩ := List.mem_map.mp hk
    cases hpass : isPass k with
    | false =>
      rw [hargs] at hshows
      exact (isPass_of_shows hshows hw hmem hpass).symm
    | true =>
      refine (isPass_varkw hself hargs (fun c' hdiffer haccepts' => ?_) haccepts hw hmem
        hpass).symm
      obtain ⟨sent', hsent', heq⟩ := hsame c' default hdiffer rfl
      have hreport' := ((wrapped_sends_iff hfound rfl).mp hsent').1
      rw [report_of_accepts haccepts' (names_of_report hreport')] at hreport'
      exact (Option.some.inj hreport').trans heq
  · intro hc run ex hfails
    refine ⟨⟨c.context, functions.name f, ex, _⟩,
      (wrapped_sends_iff hfound hfails).mpr ⟨report_of_accepts haccepts hc.1, rfl⟩,
      shows_of_reportable hself haccepts hc, fun c' ex' hdiffer hfails' => ?_⟩
    have hnames : "function" ∉ Dict.keys c'.kw ∧ "func" ∉ Dict.keys c'.kw := by
      rw [hdiffer.kw.keys_eq]
      exact hc.1
    exact ⟨⟨c'.context, functions.name f, ex', _⟩, (wrapped_sends_iff hfound hfails').mpr
      ⟨report_of_accepts (hdiffer.accepts haccepts) hnames, rfl⟩,
      cleansed_congr (hdiffer.cleanse_bind hc.2)⟩

/-- A notification is sent only if a function is found that accepts the call. -/
theorem accepts_of_sent {fuel : Nat} {run : φ → Call α → Except ε β} {ex : ε}
    (hfails : run f c = .error ex) {sent : Notification ε α}
    (h : wrapped functions true fuel run f c = some (.error (.again ex), [sent])) :
    ∃ g, getWrappedFunction functions.closure fuel f = some (some g) ∧
      (functions.argspec g).Accepts c.positional c.kw := by
  cases hfound : getWrappedFunction functions.closure fuel f with
  | none =>
    unfold wrapped getCallDict at h
    rw [hfails, hfound] at h
    simp only [↓reduceIte, Option.map_none] at h
    split at h <;> cases h
  | some found =>
    cases found with
    | none =>
      unfold wrapped getCallDict at h
      rw [hfails, hfound] at h
      simp only [↓reduceIte, Option.map_some, Option.bind_none] at h
      split at h <;> cases h
    | some g =>
      refine ⟨g, rfl, ?_⟩
      have hreport := ((wrapped_sends_iff hfound hfails).mp h).1
      unfold report Py.Signature.getcallargs at hreport
      by_contra hrefuses
      rw [if_neg hrefuses] at hreport
      split at hreport
      · cases hreport
      · split at hreport <;> cases hreport

/-- `def f()`. -/
def noParameters (α : Type) : Py.Signature α := ⟨[], [], none, none, List.nodup_nil, Nat.le_refl 0⟩

theorem not_accepts_noParameters (c : Call α) :
    ¬ (noParameters α).Accepts c.positional c.kw := by
  rintro ⟨-, hfurther, -⟩
  rcases hfurther with hextra | hvarargs
  · cases hextra
  · cases hvarargs

variable (β ε) in
/-- **Main result.** For every method whose parameters begin with `self` and `context`, every
function that is decorated in its place, and every call that its parameters accept. Where the
first callables of the closures lead to the method, the call is reported as it should be exactly
if each collected keyword is a password just where the name of the collection is one, and no
keyword is called `function` or `func`. Whatever the parameters of the other functions are, it is
so reported only if the first callables lead there. -/
theorem reports_iff [DecidableEq φ] [Nontrivial α] [Inhabited ε] (closure : φ → List (Cell φ))
    (name : φ → String) (f g : φ) (s : Py.Signature α)
    (hself : ∃ rest, s.args = "self" :: "context" :: rest) (c : Call α)
    (haccepts : s.Accepts c.positional c.kw) :
    (Uncovers closure f g → ∀ argspec : φ → Py.Signature α, argspec g = s →
      ∃ n, ∀ fuel, n ≤ fuel →
        (Reports ⟨closure, argspec, name⟩ s ε β fuel f c ↔ Reportable s c)) ∧
    ((∀ argspec : φ → Py.Signature α, argspec g = s →
      ∃ n, ∀ fuel, n ≤ fuel → Reports ⟨closure, argspec, name⟩ s ε β fuel f c) ↔
        Uncovers closure f g ∧ Reportable s c) := by
  have hfound : Uncovers closure f g → ∀ argspec : φ → Py.Signature α, argspec g = s →
      ∃ n, ∀ fuel, n ≤ fuel →
        (Reports ⟨closure, argspec, name⟩ s ε β fuel f c ↔ Reportable s c) := by
    rintro huncovers argspec rfl
    obtain ⟨n, hn⟩ := reports_iff_of_finds β ε ⟨closure, argspec, name⟩
      (finds_iff.mpr huncovers) hself
    exact ⟨n, fun fuel hfuel => hn fuel hfuel c haccepts⟩
  refine ⟨hfound, fun hreports => ?_, fun ⟨huncovers, hc⟩ argspec hg => ?_⟩
  · -- the other functions accept no call at all
    let argspec : φ → Py.Signature α := fun h => if h = g then s else noParameters α
    have hg : argspec g = s := if_pos rfl
    obtain ⟨n, hn⟩ := hreports argspec hg
    obtain ⟨sent, hsent, -⟩ := hn n (Nat.le_refl n) (fun _ _ => .error default) default rfl
    obtain ⟨h, hwrapped, hh⟩ := accepts_of_sent rfl hsent
    have hmethod : h = g := by
      by_contra hne
      have hnone : argspec h = noParameters α := if_neg hne
      exact not_accepts_noParameters c (hnone ▸ hh)
    rw [hmethod] at hwrapped
    have huncovers := finds_iff.mp (finds_of_found hwrapped)
    obtain ⟨m, hm⟩ := hfound huncovers argspec hg
    exact ⟨huncovers, (hm (max n m) (Nat.le_max_right n m)).mp (hn _ (Nat.le_max_left n m))⟩
  · obtain ⟨n, hn⟩ := hfound huncovers argspec hg
    exact ⟨n, fun fuel hfuel => (hn fuel hfuel).mpr hc⟩

/-! ## A password among the keywords -/

/-- `def resize(self, context, instance, **kwargs)` and
`def rebuild(self, context, instance, new_pass=None)`. -/
def computeMethods : Functions Bool String where
  closure _ := []
  argspec
    | true => {
        args := ["self", "context", "instance"]
        defaults := []
        varargs := none
        varkw := some "kwargs"
        nodup := by decide
        defaults_le := by decide }
    | false => {
        args := ["self", "context", "instance", "new_pass"]
        defaults := ["None"]
        varargs := none
        varkw := none
        nodup := by decide
        defaults_le := by decide }
  name
    | true => "resize"
    | false => "rebuild"

/-- A call with one keyword. -/
def callWith (k v : String) (h : k ≠ "self" ∧ k ≠ "context") : Call String where
  self := "manager"
  context := "ctxt"
  args := ["i-1"]
  kw := [(k, v)]
  nodup := List.nodup_singleton k
  bound := ⟨fun hmem => h.1 (List.mem_singleton.mp hmem).symm,
    fun hmem => h.2 (List.mem_singleton.mp hmem).symm⟩

/-- `resize(context, "i-1", admin_pass=password)`. -/
def resizeCall (password : String) : Call String := callWith "admin_pass" password (by decide)

/-- The password that `**kwargs` collects is in the notification. -/
theorem password_notified :
    (computeMethods.argspec true).Accepts (resizeCall "hunter2").positional
      (resizeCall "hunter2").kw ∧
    DifferInPasses (computeMethods.argspec true) (resizeCall "hunter2") (resizeCall "s3cret") ∧
    (∀ fuel, ∀ password ∈ ["hunter2", "s3cret"],
      wrapped computeMethods true fuel (fun _ _ => (.error "no host" : Except String Unit)) true
        (resizeCall password) = some (.error (.again "no host"), [⟨"ctxt", "resize", "no host",
          [("instance", .value "i-1"), ("kwargs", .dict [("admin_pass", password)])]⟩])) ∧
    ∀ fuel, ¬ Reports computeMethods (computeMethods.argspec true) String Unit fuel true
      (resizeCall "hunter2") := by
  have hdiffer : DifferInPasses (computeMethods.argspec true) (resizeCall "hunter2")
      (resizeCall "s3cret") :=
    ⟨LookSame.refl _, rfl, .inl rfl, .cons ⟨rfl, .inl (by decide)⟩ .nil⟩
  have hreport : ∀ password ∈ ["hunter2", "s3cret"],
      report (computeMethods.argspec true) (resizeCall password) =
        some [("instance", .value "i-1"), ("kwargs", .dict [("admin_pass", password)])] := by
    decide
  have hsent : ∀ fuel, ∀ password ∈ ["hunter2", "s3cret"],
      wrapped computeMethods true fuel (fun _ _ => (.error "no host" : Except String Unit)) true
        (resizeCall password) = some (.error (.again "no host"), [⟨"ctxt", "resize", "no host",
          [("instance", .value "i-1"), ("kwargs", .dict [("admin_pass", password)])]⟩]) :=
    fun fuel password hmem =>
      (wrapped_sends_iff (g := true) rfl rfl).mpr ⟨hreport password hmem, rfl⟩
  refine ⟨by decide, hdiffer, hsent, fun fuel hreports => ?_⟩
  obtain ⟨sent, hfirst, -, hsame⟩ := hreports (fun _ _ => .error "no host") "no host" rfl
  obtain ⟨sent', hsecond, heq⟩ := hsame (resizeCall "s3cret") "no host" hdiffer rfl
  rw [hsent fuel "hunter2" (by decide)] at hfirst
  rw [hsent fuel "s3cret" (by decide)] at hsecond
  cases hfirst
  cases hsecond
  exact absurd heq (by decide)

theorem rebuild_reported : ∃ n, ∀ fuel, n ≤ fuel →
    Reports computeMethods (computeMethods.argspec false) String Unit fuel false
      (callWith "new_pass" "hunter2" (by decide)) := by
  have : Nontrivial String := ⟨"hunter2", "s3cret", by decide⟩
  have hreportable : Reportable (computeMethods.argspec false)
      (callWith "new_pass" "hunter2" (by decide)) := by
    refine ⟨by decide, fun w hw => ?_⟩
    cases hw
  exact (reports_iff Unit String computeMethods.closure computeMethods.name false false
    (computeMethods.argspec false) ⟨["instance", "new_pass"], rfl⟩ _ (by decide)).2.mpr
      ⟨⟨.stop rfl, .inl rfl⟩, hreportable⟩ computeMethods.argspec rfl

end PolarBear.Utils
