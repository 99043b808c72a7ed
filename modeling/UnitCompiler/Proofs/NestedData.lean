import UnitCompiler.Proofs.Copies
import UnitCompiler.Proofs.DataSegment

namespace UnitCompiler

open Context Emitter

/-- A data declaration, and how many declarations are around it. -/
structure PlacedData where
  depth : Nat
  item : DataItem
deriving DecidableEq, Repr

mutual

/-- The data declarations that an emission comes by, in text order: the declaration itself, or those in the fields
of a struct and in the body of a function. -/
def Decl.placedData (depth : Nat) : Decl → List PlacedData
  | .data _ d => [⟨depth, d⟩]
  | .struct _ _ fields => DeclList.placedData (depth + 1) fields
  | .function _ _ _ body => Stmt.placedDataOfAll (depth + 1) body
  | .var _ _ | .array _ _ => []

def DeclList.placedData (depth : Nat) : List (Option Decl) → List PlacedData
  | [] => []
  | none :: rest => DeclList.placedData depth rest
  | some d :: rest => Decl.placedData depth d ++ DeclList.placedData depth rest

def Stmt.placedData (depth : Nat) : Stmt → List PlacedData
  | .declare d => Decl.placedData depth d
  | .block body _ => Stmt.placedDataOfAll depth body
  | .goto _ _ _ | .label _ _ _ | .eval _ _ => []

def Stmt.placedDataOfAll (depth : Nat) : List Stmt → List PlacedData
  | [] => []
  | stmt :: rest => Stmt.placedData depth stmt ++ Stmt.placedDataOfAll depth rest

end

/-- The constant can be written into the data segment: a number, or a text with a label of its own. -/
def DataConst.isRecorded : DataConst → Bool
  | ⟨.int _, _⟩ | ⟨.float _, _⟩ | ⟨.string _, some _⟩ => true
  | ⟨.string _, none⟩ | ⟨.null, _⟩ => false

def DataConst.words : DataConst → List Emission
  | ⟨.int v, _⟩ => [.word 1 none, .word v none]
  | ⟨.float x, _⟩ => [.word 2 none, .word x.bits.toInt32 none]
  | ⟨.string _, some label⟩ => [.word 4 none, .pointer label]
  | ⟨.string _, none⟩ | ⟨.null, _⟩ => []

namespace DataItem

def payload (d : DataItem) : List Emission :=
  match d.constant with
  | some ⟨.string text, some label⟩ => [.string text label]
  | _ => []

def words (d : DataItem) : List Emission :=
  (d.constant.map DataConst.words).getD []

structure Follows (d d' : DataItem) : Prop where
  expr : d'.expr = d.expr
  constant : d'.constant = d.constant ∨ ∃ f, d'.constant = some f ∧ f.isRecorded = true

theorem Follows.refl (d : DataItem) : d.Follows d := ⟨rfl, Or.inl rfl⟩

theorem Follows.trans {d d' d'' : DataItem} (h : d.Follows d') (h' : d'.Follows d'') : d.Follows d'' := by
  refine ⟨h'.expr.trans h.expr, ?_⟩
  obtain heq | hfound := h'.constant
  · rw [heq]
    exact h.constant
  · exact Or.inr hfound

theorem register_follows {d d' : DataItem} {env : ScopeId} {c c' : Context} (h : d.register env c = .ok d' c') :
    d.Follows d' := by
  obtain ⟨text, -, rfl⟩ | ⟨lit, hnull, htext, -, rfl⟩ := register_eq_ok h
  · exact ⟨rfl, Or.inr ⟨_, rfl, rfl⟩⟩
  · refine ⟨rfl, Or.inr ⟨_, rfl, ?_⟩⟩
    cases lit with
    | int | float => rfl
    | string text => exact absurd rfl (htext text)
    | null => exact absurd rfl hnull

end DataItem

structure PlacedData.Follows (x y : PlacedData) : Prop where
  depth : y.depth = x.depth
  item : x.item.Follows y.item

abbrev PlacedData.AllFollow : List PlacedData → List PlacedData → Prop :=
  List.Forall₂ PlacedData.Follows

namespace PlacedData

theorem AllFollow.refl (xs : List PlacedData) : AllFollow xs xs :=
  List.forall₂_same.mpr fun x _ => ⟨rfl, .refl x.item⟩

theorem AllFollow.trans {xs ys zs : List PlacedData} (h : AllFollow xs ys) (h' : AllFollow ys zs) :
    AllFollow xs zs := by
  induction h generalizing zs with
  | nil => exact h'
  | cons hx _ ih =>
    cases h' with
    | cons hy hrest => exact .cons ⟨hy.depth.trans hx.depth, hx.item.trans hy.item⟩ (ih hrest)

end PlacedData

open PlacedData

structure Decl.Follows (d d' : Decl) : Prop where
  isStruct : d'.isStruct = d.isStruct
  data : ∀ depth, AllFollow (d.placedData depth) (d'.placedData depth)

theorem Decl.Follows.refl (d : Decl) : d.Follows d := ⟨rfl, fun _ => .refl _⟩

theorem Decl.Follows.trans {d d' d'' : Decl} (h : d.Follows d') (h' : d'.Follows d'') : d.Follows d'' :=
  ⟨h'.isStruct.trans h.isStruct, fun depth => (h.data depth).trans (h'.data depth)⟩

abbrev DeclList.Follows : DeclList → DeclList → Prop :=
  List.Forall₂ (Option.Rel Decl.Follows)

def Stmt.FollowsAll (body body' : List Stmt) : Prop :=
  ∀ depth, AllFollow (Stmt.placedDataOfAll depth body) (Stmt.placedDataOfAll depth body')

section Passes

theorem DeclList.Follows.data {seq seq' : DeclList} (h : DeclList.Follows seq seq') (depth : Nat) :
    AllFollow (DeclList.placedData depth seq) (DeclList.placedData depth seq') := by
  induction h with
  | nil => exact .nil
  | cons hslot _ ih =>
    cases hslot with
    | none => exact ih
    | some hd => exact List.rel_append (hd.data depth) ih

/-- Registration finds the constant of a data declaration and leaves all parts of a declaration alone. -/
theorem Decl.register_follows (d : Decl) (env : ScopeId) (target : Target) (s : Session) :
    d.Follows (d.register env target s).1.node ∧ (d.register env target s).1.node.body = d.body := by
  generalize hnode : (d.register env target s).1.node = d'
  cases hnode ▸ d.register_enrolled env target s with
  | same => exact ⟨.refl _, rfl⟩
  | var | array => exact ⟨⟨rfl, fun _ => .nil⟩, rfl⟩
  | data h => exact ⟨⟨rfl, fun depth => .cons ⟨rfl, DataItem.register_follows h⟩ .nil⟩, rfl⟩
  | struct | function => exact ⟨⟨rfl, fun _ => .refl _⟩, rfl⟩

theorem DeclList.register_follows (env : ScopeId) (target : Target) (seq : DeclList) (s : Session) :
    DeclList.Follows seq (seq.register env target s).1.node :=
  DeclList.register_forall₂ Decl.Follows.refl (fun d s => (d.register_follows env target s).1) seq s

/-- A check finds the constants in the fields of a struct and in the body of a function. -/
theorem Decl.checkWith_follows {d : Decl} {env : ScopeId} {run : ScopeId → SessionM (Visited (List Stmt))}
    (hrun : ∀ scope s, Stmt.FollowsAll d.body (run scope s).1.node) (s : Session) :
    d.Follows (d.checkWith env run s).1.node := by
  cases d with
  | var | array | data => exact .refl _
  | struct site head fields =>
    rw [Decl.checkWith]
    cases head.ty with
    | none => exact .refl _
    | some ty =>
      have hfields := DeclList.register_follows env (.fields ty) fields s
      rcases hvisited : DeclList.register env (.fields ty) fields s with ⟨⟨fields', outcome⟩, u⟩
      rw [hvisited] at hfields
      dsimp only
      rw [SessionM.bind_of_eq _ hvisited]
      cases outcome with
      | error e => exact ⟨rfl, fun depth => hfields.data (depth + 1)⟩
      | ok _ => exact ⟨rfl, fun depth => hfields.data (depth + 1)⟩
  | function site head params body =>
    rcases hentered : Session.attempt (head.enter env) s with ⟨outcome, u⟩
    rw [Decl.checkWith, SessionM.bind_of_eq _ hentered]
    cases outcome with
    | error e => exact .refl _
    | ok scope => exact ⟨rfl, fun depth => hrun scope u (depth + 1)⟩

mutual

theorem Stmt.check_follows : ∀ (stmt : Stmt) (env : ScopeId) (s : Session) (depth : Nat),
    AllFollow (stmt.placedData depth) ((stmt.check env s).1.node.placedData depth)
  | .declare d, env, s, depth => by
    obtain ⟨hregister, hbody⟩ := d.register_follows env (.scope env) s
    rcases hregistered : d.register env (.scope env) s with ⟨⟨d', outcome⟩, u⟩
    rw [hregistered] at hregister hbody
    rw [Stmt.check, SessionM.bind_of_eq _ hregistered]
    cases outcome with
    | error e => exact hregister.data depth
    | ok _ =>
      have hcheck : d'.Follows (d'.checkWith env (fun scope => Decl.checkBody d scope) u).1.node :=
        Decl.checkWith_follows (fun scope s => hbody ▸ Decl.checkBody_follows d scope s) u
      exact (hregister.trans hcheck).data depth
  | .block body span, env, s, depth => by
    rw [Stmt.check_block]
    exact Stmt.checkAll_follows body _ _ depth
  | .goto name span old, env, s, depth => by
    rw [Stmt.check_goto]
    exact .nil
  | .label name span old, env, s, depth => by
    rw [Stmt.check_label]
    split <;> exact .nil
  | .eval e old, env, s, depth => by
    rw [Stmt.check_eval]
    split <;> exact .nil

theorem Decl.checkBody_follows : ∀ (d : Decl) (env : ScopeId) (s : Session),
    Stmt.FollowsAll d.body (Decl.checkBody d env s).1.node
  | .function _ _ _ body, env, s => by
    rw [Decl.checkBody]
    exact Stmt.checkAll_follows body env s
  | .var _ _, _, _ | .struct _ _ _, _, _ | .data _ _, _, _ | .array _ _, _, _ => fun _ => .nil

theorem Stmt.checkAll_follows : ∀ (body : List Stmt) (env : ScopeId) (s : Session),
    Stmt.FollowsAll body (Stmt.checkAll body env s).1.node
  | [], env, s => by
    rw [Stmt.checkAll]
    exact fun _ => .nil
  | stmt :: rest, env, s => by
    intro depth
    have hstmt := Stmt.check_follows stmt env s depth
    rcases hchecked : stmt.check env s with ⟨⟨stmt', outcome⟩, u⟩
    rw [hchecked] at hstmt
    rw [Stmt.checkAll, SessionM.bind_of_eq _ hchecked]
    cases outcome with
    | error e => exact List.rel_append hstmt (AllFollow.refl _)
    | ok _ => exact List.rel_append hstmt (Stmt.checkAll_follows rest env u depth)

end

theorem DeclList.checkFrom_follows (env : ScopeId) (index : Nat) (seq : DeclList) (s : Session) :
    DeclList.Follows seq (DeclList.checkFrom env index seq s).1.node := by
  induction seq generalizing index s with
  | nil => exact .nil
  | cons slot rest ih =>
    cases slot with
    | none =>
      rw [DeclList.checkFrom]
      exact .cons .none (ih _ _)
    | some d =>
      have hhere : d.Follows (d.check env (Session.log (.visited .check index d.noun) s).2).1.node :=
        Decl.checkWith_follows d.checkBody_follows _
      rcases hchecked : d.check env (Session.log (.visited .check index d.noun) s).2 with ⟨⟨d', outcome⟩, u⟩
      rw [hchecked] at hhere
      rw [DeclList.checkFrom, SessionM.bind_log, SessionM.bind_of_eq _ hchecked]
      cases outcome with
      | error e => exact .cons (.some hhere) (DeclList.forall₂_refl Decl.Follows.refl rest)
      | ok _ => exact .cons (.some hhere) (ih _ u)

end Passes

/-- The items that came in between hold the texts of the data, in order, and each item of data had a constant. -/
structure Emitter.Stored (data : List PlacedData) (s t : Emitter Listing) : Prop where
  constants : ∀ x ∈ data, x.item.constant.isSome = true
  payloads : ∃ es, t.backend.items = s.backend.items ++ es ∧ (data.flatMap fun x => x.item.payload).Sublist es

namespace Emitter.Stored

variable {data data' : List PlacedData} {s t u : Emitter Listing}

theorem append (h : Stored data s t) (h' : Stored data' t u) : Stored (data ++ data') s u := by
  obtain ⟨es, hes, hsub⟩ := h.payloads
  obtain ⟨es', hes', hsub'⟩ := h'.payloads
  refine ⟨List.forall_mem_append.mpr ⟨h.constants, h'.constants⟩, es ++ es', ?_, ?_⟩
  · rw [hes', hes, List.append_assoc]
  · rw [List.flatMap_append]
    exact hsub.append hsub'

/-- A step that comes by no data declaration adds what it likes. -/
theorem of_stable {ε α : Type} {x : EStateM ε (Emitter Listing) α} (hx : Stable x) {a : α} (h : x s = .ok a t) :
    Stored [] s t := by
  have hsent := (hx s).backend
  rw [after_of_ok h] at hsent
  obtain ⟨es, hes⟩ := Listing.prefix_of_sent hsent
  exact ⟨fun x hx => absurd hx List.not_mem_nil, es, hes.symm, List.nil_sublist es⟩

end Emitter.Stored

theorem DataItem.emit_stored {d : DataItem} {s t : Emitter Listing} (h : d.emit s = .ok () t) (depth : Nat) :
    Stored [⟨depth, d⟩] s t := by
  unfold DataItem.emit DataItem.record at h
  cases hd : d.constant with
  | none =>
    rw [hd] at h
    cases h
  | some f =>
    rw [hd] at h
    refine ⟨List.forall_mem_singleton.mpr (by rw [hd]; rfl), ?_⟩
    rw [List.flatMap_singleton, DataItem.payload, hd]
    obtain ⟨value, label⟩ := f
    cases value with
    | int | float | null =>
      cases h
      exact ⟨[], (List.append_nil _).symm, .refl _⟩
    | string text =>
      cases label with
      | none =>
        cases h
        exact ⟨[], (List.append_nil _).symm, .refl _⟩
      | some label => exact ⟨_, Listing.send_eq_ok h, .refl _⟩

theorem FunctionHead.emit_stored {f : FunctionHead} {body : EmitM Listing Unit} {data : List PlacedData}
    (hbody : ∀ {s t : Emitter Listing}, body s = .ok () t → Stored data s t) {s t : Emitter Listing}
    (h : f.emit body s = .ok () t) : Stored data s t := by
  obtain ⟨env, u, w, -, henter, hw, hleave⟩ := FunctionHead.emit_eq_ok h
  have hin : Stored data u { w with frame := u.frame } := ⟨(hbody hw).constants, (hbody hw).payloads⟩
  have hall := (Stored.of_stable (f.emitEnter_stable env _) henter).append
    (hin.append (Stored.of_stable (FunctionHead.emitLeave_stable env _) hleave))
  rwa [List.nil_append, List.append_nil] at hall

mutual

theorem Decl.emit_stored : ∀ (d : Decl) (depth : Nat) (s t : Emitter Listing), d.emit s = .ok () t →
    Stored (d.placedData depth) s t
  | .var _ v, depth, s, t, h => by
    rw [Decl.emit] at h
    exact .of_stable v.emit_stable h
  | .array _ v, depth, s, t, h => by
    rw [Decl.emit] at h
    exact .of_stable v.emit_stable h
  | .data _ d, depth, s, t, h => by
    rw [Decl.emit] at h
    exact DataItem.emit_stored h depth
  | .function _ head _ body, depth, s, t, h => by
    rw [Decl.emit] at h
    exact FunctionHead.emit_stored (fun hbody => Stmt.emitAll_stored body (depth + 1) _ _ hbody) h
  | .struct _ head fields, depth, s, t, h => by
    rw [Decl.emit] at h
    obtain ⟨_, u, hfields, hhead⟩ := bind_eq_ok.mp h
    have hstored := (DeclList.emitFrom_stored fields 0 (depth + 1) s u (adaptExcept_eq_ok.mp hfields)).append
      (Stored.of_stable head.emit_stable hhead)
    rwa [List.append_nil] at hstored

theorem DeclList.emitFrom_stored : ∀ (seq : List (Option Decl)) (index depth : Nat) (s t : Emitter Listing),
    DeclList.emitFrom index seq s = .ok () t → Stored (DeclList.placedData depth seq) s t
  | [], index, depth, s, t, h => by
    rw [DeclList.emitFrom] at h
    exact .of_stable (stable_pure ()) h
  | none :: rest, index, depth, s, t, h => by
    rw [DeclList.emitFrom] at h
    obtain ⟨_, u, hlog, hrest⟩ := bind_eq_ok.mp h
    exact (Stored.of_stable (stable_log _) hlog).append (DeclList.emitFrom_stored rest (index + 1) depth u t hrest)
  | some d :: rest, index, depth, s, t, h => by
    rw [DeclList.emitFrom] at h
    obtain ⟨_, u, hlog, h⟩ := bind_eq_ok.mp h
    obtain ⟨_, v, hhere, hrest⟩ := bind_eq_ok.mp h
    exact (Stored.of_stable (stable_log _) hlog).append
      ((Decl.emit_stored d depth u v (DeclList.guarded_eq_ok.mp hhere)).append
        (DeclList.emitFrom_stored rest (index + 1) depth v t hrest))

theorem Stmt.emit_stored : ∀ (stmt : Stmt) (depth : Nat) (s t : Emitter Listing), stmt.emit s = .ok () t →
    Stored (stmt.placedData depth) s t
  | .declare d, depth, s, t, h => by
    rw [Stmt.emit] at h
    exact Decl.emit_stored d depth s t (adaptExcept_eq_ok.mp h)
  | .block body _, depth, s, t, h => by
    rw [Stmt.emit] at h
    exact Stmt.emitAll_stored body depth s t h
  | .goto name span env, depth, s, t, h => .of_stable (Stmt.emit_stable (.goto name span env)) h
  | .label name span env, depth, s, t, h => .of_stable (Stmt.emit_stable (.label name span env)) h
  | .eval e value, depth, s, t, h => .of_stable (Stmt.emit_stable (.eval e value)) h

theorem Stmt.emitAll_stored : ∀ (body : List Stmt) (depth : Nat) (s t : Emitter Listing),
    Stmt.emitAll body s = .ok () t → Stored (Stmt.placedDataOfAll depth body) s t
  | [], depth, s, t, h => by
    rw [Stmt.emitAll] at h
    exact .of_stable (stable_pure ()) h
  | stmt :: rest, depth, s, t, h => by
    rw [Stmt.emitAll] at h
    obtain ⟨_, u, hhere, hrest⟩ := bind_eq_ok.mp h
    exact (Stmt.emit_stored stmt depth s u (adaptExcept_eq_ok.mp hhere)).append
      (Stmt.emitAll_stored rest depth u t hrest)

end

mutual

theorem Decl.le_depth : ∀ {d : Decl} {depth : Nat} {x : PlacedData}, x ∈ d.placedData depth → depth ≤ x.depth
  | .data _ _, _, _, h => by
    rw [Decl.placedData] at h
    rw [List.mem_singleton.mp h]
  | .struct _ _ _, _, _, h => by
    rw [Decl.placedData] at h
    exact Nat.le_of_succ_le (DeclList.le_depth h)
  | .function _ _ _ _, _, _, h => by
    rw [Decl.placedData] at h
    exact Nat.le_of_succ_le (Stmt.le_depth_of_all h)
  | .var _ _, _, _, h | .array _ _, _, _, h => by cases h

theorem DeclList.le_depth : ∀ {seq : List (Option Decl)} {depth : Nat} {x : PlacedData},
    x ∈ DeclList.placedData depth seq → depth ≤ x.depth
  | [], _, _, h => by cases h
  | none :: rest, _, _, h => by
    rw [DeclList.placedData] at h
    exact DeclList.le_depth h
  | some d :: rest, _, _, h => by
    rw [DeclList.placedData] at h
    obtain h | h := List.mem_append.mp h
    · exact Decl.le_depth h
    · exact DeclList.le_depth h

theorem Stmt.le_depth : ∀ {stmt : Stmt} {depth : Nat} {x : PlacedData}, x ∈ stmt.placedData depth →
    depth ≤ x.depth
  | .declare _, _, _, h => by
    rw [Stmt.placedData] at h
    exact Decl.le_depth h
  | .block _ _, _, _, h => by
    rw [Stmt.placedData] at h
    exact Stmt.le_depth_of_all h
  | .goto _ _ _, _, _, h | .label _ _ _, _, _, h | .eval _ _, _, _, h => by cases h

theorem Stmt.le_depth_of_all : ∀ {body : List Stmt} {depth : Nat} {x : PlacedData},
    x ∈ Stmt.placedDataOfAll depth body → depth ≤ x.depth
  | [], _, _, h => by cases h
  | stmt :: rest, _, _, h => by
    rw [Stmt.placedDataOfAll] at h
    obtain h | h := List.mem_append.mp h
    · exact Stmt.le_depth h
    · exact Stmt.le_depth_of_all h

end

def PlacedData.record (x : PlacedData) : List Emission :=
  if x.depth = 0 then x.item.words else []

theorem DataItem.emitData_words {d : DataItem} {s t : Emitter Listing} (h : d.emitData s = .ok () t) :
    t.backend.items = s.backend.items ++ d.words := by
  unfold DataItem.emitData DataItem.record at h
  unfold DataItem.words
  cases hd : d.constant with
  | none =>
    rw [hd] at h
    cases h
  | some f =>
    rw [hd] at h
    obtain ⟨value, label⟩ := f
    cases value with
    | int | float => exact Listing.sendAll_eq_ok h
    | null => cases label <;> cases h
    | string text =>
      cases label with
      | none => cases h
      | some label => exact Listing.sendAll_eq_ok h

theorem PlacedData.records_nested {data : List PlacedData} (h : ∀ x ∈ data, 0 < x.depth) :
    data.flatMap PlacedData.record = [] := by
  rw [List.flatMap_eq_nil_iff]
  intro x hx
  exact if_neg (Nat.ne_of_gt (h x hx))

theorem Decl.emitData_records {d : Decl} {s t : Emitter Listing} (h : d.emitData s = .ok () t) :
    t.backend.items = s.backend.items ++ (d.placedData 0).flatMap PlacedData.record := by
  cases d with
  | data site item =>
    rw [Decl.placedData, List.flatMap_singleton]
    exact DataItem.emitData_words h
  | var | array =>
    cases h
    exact (List.append_nil _).symm
  | struct site head fields =>
    cases h
    rw [Decl.placedData, records_nested (fun _ hx => DeclList.le_depth hx), List.append_nil]
  | function site head params body =>
    cases h
    rw [Decl.placedData, records_nested (fun _ hx => Stmt.le_depth_of_all hx), List.append_nil]

/-- The data segment is made of the records of a program's data, in text order. -/
theorem DeclList.emitData_records {seq : DeclList} {s t : Emitter Listing} (h : seq.emitData s = .ok () t) :
    t.backend.items = s.backend.items ++ (DeclList.placedData 0 seq).flatMap PlacedData.record := by
  induction seq generalizing s with
  | nil =>
    cases h
    exact (List.append_nil _).symm
  | cons slot rest ih =>
    cases slot with
    | none => exact ih h
    | some d =>
      obtain ⟨_, u, hhere, hrest⟩ := bind_eq_ok.mp h
      rw [DeclList.placedData, List.flatMap_append, ← List.append_assoc,
        ← Decl.emitData_records (DeclList.guarded_eq_ok.mp hhere)]
      exact ih hrest

namespace PlacedData

theorem payload_eq {x : PlacedData} {text label : String}
    (h : x.item.constant = some ⟨.string text, some label⟩) : x.item.payload = [.string text label] := by
  rw [DataItem.payload, h]

/-- A record points at the text of its own declaration only. -/
theorem text_of_referred {x : PlacedData} {label : String} (h : label ∈ referredBy x.record) :
    ∃ text, x.item.constant = some ⟨.string text, some label⟩ := by
  unfold record at h
  split at h
  · unfold DataItem.words at h
    cases hc : x.item.constant with
    | none =>
      rw [hc] at h
      cases h
    | some f =>
      rw [hc] at h
      obtain ⟨value, own⟩ := f
      cases value with
      | int | float | null => cases h
      | string text =>
        cases own with
        | none => cases h
        | some own =>
          obtain rfl : label = own := List.mem_singleton.mp h
          exact ⟨text, rfl⟩
  · cases h

theorem mem_definedBy {data : List PlacedData} {x : PlacedData} (hx : x ∈ data) {text label : String}
    (h : x.item.constant = some ⟨.string text, some label⟩) :
    label ∈ definedBy (data.flatMap fun x => x.item.payload) := by
  refine List.mem_filterMap.mpr ⟨.string text label, List.mem_flatMap.mpr ⟨x, hx, ?_⟩, rfl⟩
  rw [payload_eq h]
  exact List.mem_singleton_self _

/-- Where no two texts share a label, a text is pointed at once if its record is there, and else never. -/
theorem count_referred {data : List PlacedData} (hnodup : (definedBy (data.flatMap fun x => x.item.payload)).Nodup)
    {x : PlacedData} (hx : x ∈ data) {text label : String}
    (h : x.item.constant = some ⟨.string text, some label⟩) :
    (referredBy (data.flatMap record)).count label = if x.depth = 0 then 1 else 0 := by
  induction data with
  | nil => cases hx
  | cons y rest ih =>
    rw [List.flatMap_cons, definedBy_append, List.nodup_append] at hnodup
    obtain ⟨-, hrest, hdisjoint⟩ := hnodup
    rw [List.flatMap_cons, referredBy_append, List.count_append]
    have hown : ∀ {z : PlacedData} {text : String}, z.item.constant = some ⟨.string text, some label⟩ →
        label ∈ definedBy z.item.payload := by
      intro z text hz
      rw [payload_eq hz]
      exact List.mem_singleton_self _
    obtain rfl | hx := List.mem_cons.mp hx
    -- labels are distinct, so no other item refers to this text
    · have hlater : (referredBy (rest.flatMap record)).count label = 0 := by
        rw [List.count_eq_zero]
        intro hmem
        obtain ⟨e, he, hlabel⟩ := List.mem_flatMap.mp hmem
        obtain ⟨z, hz, he⟩ := List.mem_flatMap.mp he
        obtain ⟨text', htext'⟩ := text_of_referred (List.mem_flatMap.mpr ⟨e, he, hlabel⟩)
        exact hdisjoint label (hown h) label (mem_definedBy hz htext') rfl
      rw [hlater, record, DataItem.words, h]
      split
      · exact List.count_singleton_self
      · rfl
    · have hhere : (referredBy y.record).count label = 0 := by
        rw [List.count_eq_zero]
        intro hlabel
        obtain ⟨text', htext'⟩ := text_of_referred hlabel
        exact hdisjoint label (hown htext') label (mem_definedBy hx h) rfl
      rw [hhere, Nat.zero_add]
      exact ih hrest hx

end PlacedData

mutual

theorem Decl.constant_of_isFresh : ∀ {d : Decl} {depth : Nat} {x : PlacedData}, d.isFresh = true →
    x ∈ d.placedData depth → x.item.constant = none
  | .data _ _, _, _, hfresh, h => by
    rw [Decl.placedData] at h
    rw [Decl.isFresh, Option.isNone_iff_eq_none] at hfresh
    rw [List.mem_singleton.mp h]
    exact hfresh
  | .struct _ _ _, _, _, hfresh, h => by
    rw [Decl.placedData] at h
    rw [Decl.isFresh, Bool.and_eq_true] at hfresh
    exact DeclList.constant_of_areFresh hfresh.2 h
  | .function _ _ _ _, _, _, hfresh, h => by
    rw [Decl.placedData] at h
    rw [Decl.isFresh, Bool.and_eq_true] at hfresh
    exact Stmt.constant_of_areFresh hfresh.2 h
  | .var _ _, _, _, _, h | .array _ _, _, _, _, h => by cases h

theorem DeclList.constant_of_areFresh : ∀ {seq : List (Option Decl)} {depth : Nat} {x : PlacedData},
    DeclList.areFresh seq = true → x ∈ DeclList.placedData depth seq → x.item.constant = none
  | [], _, _, _, h => by cases h
  | none :: rest, _, _, hfresh, h => by
    rw [DeclList.placedData] at h
    rw [DeclList.areFresh] at hfresh
    exact DeclList.constant_of_areFresh hfresh h
  | some d :: rest, _, _, hfresh, h => by
    rw [DeclList.placedData] at h
    rw [DeclList.areFresh, Bool.and_eq_true] at hfresh
    obtain h | h := List.mem_append.mp h
    · exact Decl.constant_of_isFresh hfresh.1 h
    · exact DeclList.constant_of_areFresh hfresh.2 h

theorem Stmt.constant_of_isFresh : ∀ {stmt : Stmt} {depth : Nat} {x : PlacedData}, stmt.isFresh = true →
    x ∈ stmt.placedData depth → x.item.constant = none
  | .declare _, _, _, hfresh, h => by
    rw [Stmt.placedData] at h
    rw [Stmt.isFresh] at hfresh
    exact Decl.constant_of_isFresh hfresh h
  | .block _ _, _, _, hfresh, h => by
    rw [Stmt.placedData] at h
    rw [Stmt.isFresh] at hfresh
    exact Stmt.constant_of_areFresh hfresh h
  | .goto _ _ _, _, _, _, h | .label _ _ _, _, _, _, h | .eval _ _, _, _, _, h => by cases h

theorem Stmt.constant_of_areFresh : ∀ {body : List Stmt} {depth : Nat} {x : PlacedData},
    Stmt.areFresh body = true → x ∈ Stmt.placedDataOfAll depth body → x.item.constant = none
  | [], _, _, _, h => by cases h
  | stmt :: rest, _, _, hfresh, h => by
    rw [Stmt.placedDataOfAll] at h
    rw [Stmt.areFresh, Bool.and_eq_true] at hfresh
    obtain h | h := List.mem_append.mp h
    · exact Stmt.constant_of_isFresh hfresh.1 h
    · exact Stmt.constant_of_areFresh hfresh.2 h

end

theorem PlacedData.AllFollow.exprs {xs ys : List PlacedData} (h : AllFollow xs ys) :
    ys.map (fun y => (y.depth, y.item.expr)) = xs.map fun x => (x.depth, x.item.expr) := by
  induction h with
  | nil => rfl
  | cons hx _ ih => rw [List.map_cons, List.map_cons, ih, hx.depth, hx.item.expr]

/-- A constant that was not there before is one that was found. -/
theorem PlacedData.AllFollow.recorded {xs ys : List PlacedData} (h : AllFollow xs ys)
    (hxs : ∀ x ∈ xs, x.item.constant = none) {y : PlacedData} (hy : y ∈ ys)
    (hsome : y.item.constant.isSome = true) : ∃ f, y.item.constant = some f ∧ f.isRecorded = true := by
  induction h with
  | nil => cases hy
  | cons hx _ ih =>
    obtain ⟨hnone, hxs⟩ := List.forall_mem_cons.mp hxs
    obtain rfl | hy := List.mem_cons.mp hy
    · obtain hold | hfound := hx.item.constant
      · rw [hold, hnone] at hsome
        cases hsome
      · exact hfound
    · exact ih hxs hy

/-- The passes find constants for the data of a program and leave it where it is. -/
theorem DeclList.Analyzed.data {program registered checked : DeclList} {c final : Context}
    (h : program.Analyzed registered checked c final) :
    AllFollow (DeclList.placedData 0 program) (DeclList.placedData 0 checked) := by
  obtain ⟨s, t, -, -, hregister⟩ := h.register
  obtain ⟨s', t', -, -, hcheck⟩ := h.check
  have hregistered := DeclList.register_follows root (.scope root) program s
  have hchecked := DeclList.checkFrom_follows root 0 registered s'
  rw [hregister] at hregistered
  rw [show DeclList.checkFrom root 0 registered s' = (⟨checked, .ok ()⟩, t') from hcheck] at hchecked
  exact (hregistered.data 0).trans (hchecked.data 0)

/-- The code holds the text of every data declaration, wherever it stands, once and under a label of its own. But the
data segment is made of the records of the data outside of all other declarations. A text in the body of a function
or in a struct is pointed at by no record. -/
theorem nested_data_unrecorded {program : DeclList} {debug : Bool} (hfresh : DeclList.areFresh program = true)
    (h : (({} : Compiler).compile program (Listing.empty debug)).outcome = .ok ()) :
    let code := (({} : Compiler).runAll program (Listing.empty debug) [.register, .check, .emit]).backend
    let r := ({} : Compiler).compile program (Listing.empty debug)
    let records := r.backend.itemsFrom code.size
    let data := DeclList.placedData 0 r.program
    code.items <+: r.backend.items ∧
    data.map (fun x => (x.depth, x.item.expr)) =
      (DeclList.placedData 0 program).map (fun x => (x.depth, x.item.expr)) ∧
    (∀ x ∈ data, ∃ f, x.item.constant = some f ∧ f.isRecorded = true) ∧
    (definedBy (data.flatMap fun x => x.item.payload)).Nodup ∧
    records = data.flatMap (fun x => if x.depth = 0 then x.item.words else []) ∧
    ∀ x ∈ data, ∀ text label, x.item.constant = some ⟨.string text, some label⟩ →
      textsUnder label code.items = [text] ∧
        (referredBy records).count label = if x.depth = 0 then 1 else 0 := by
  intro code r records data
  obtain ⟨hcode, e', u, -, -, hbackend', hdata, hprogram, -, hbackend⟩ := Compiler.compile_last h
  obtain ⟨registered, c, final, hanalyzed, e, t, -, -, hb, hemit, -, htb⟩ := Compiler.runAll_emit_stages hcode
  have hr : r.program = _ := hprogram
  have hrb : r.backend = u.backend := hbackend
  have hcb : code = t.backend := htb
  have hplaced : data = DeclList.placedData 0 _ := congrArg (DeclList.placedData 0) hr
  have hfollow := hplaced ▸ hanalyzed.data
  have hstored := hplaced ▸ DeclList.emitFrom_stored _ 0 0 e t hemit
  have hrecords := DeclList.emitData_records hdata
  rw [hbackend', htb, ← hcb, ← hplaced, ← hrb] at hrecords
  -- all texts go out with the code, whatever their depth
  obtain ⟨es, hes, hsub⟩ := hstored.payloads
  have htidy : code.Tidy := hcb ▸ DeclList.emit_tidy hb hemit
  have hnodup : (definedBy code.items).Nodup := htidy.defined ▸ htidy.nodup
  have hpayloads : (data.flatMap fun x => x.item.payload).Sublist code.items := by
    rw [hcb, hes]
    exact hsub.trans (List.sublist_append_right _ _)
  have hlabels : (definedBy (data.flatMap fun x => x.item.payload)).Nodup :=
    List.Nodup.sublist (hpayloads.filterMap _) hnodup
  -- what comes after the code are the records, and only data at the top have one
  have hwords : records = data.flatMap PlacedData.record := by
    change r.backend.items.drop code.items.length = _
    rw [hrecords, List.drop_left]
  refine ⟨hrecords ▸ List.prefix_append .., hfollow.exprs, ?_, hlabels, hwords, ?_⟩
  · intro x hx
    exact hfollow.recorded (fun y hy => DeclList.constant_of_areFresh hfresh hy) hx (hstored.constants x hx)
  · intro x hx text label hconst
    refine ⟨textsUnder_of_mem hnodup (hpayloads.subset (List.mem_flatMap.mpr ⟨x, hx, ?_⟩)), ?_⟩
    · rw [payload_eq hconst]
      exact List.mem_singleton_self _
    · rw [hwords]
      exact count_referred hlabels hx hconst

def scatteredTexts : DeclList :=
  let text (value : String) : Decl := .data {} { expr := .literal (.string value) {} }
  [some (.function {} { ident := "f", tag := .int } [] [.block [.declare (text "a")] {}]),
    some (text "b"),
    some (.struct {} { ident := "S" } [some (text "c")])]

theorem nested_data_unrecorded_scatteredTexts :
    DeclList.areFresh scatteredTexts = true ∧
    (({} : Compiler).compile scatteredTexts (Listing.empty false)).outcome = .ok () ∧
    (DeclList.placedData 0 scatteredTexts).map (fun x => x.depth) = [1, 0, 1] ∧
    let code := (({} : Compiler).runAll scatteredTexts (Listing.empty false) [.register, .check, .emit]).backend
    let records := (({} : Compiler).compile scatteredTexts (Listing.empty false)).backend.itemsFrom code.size
    (textsUnder "_1" code.items = ["b"] ∧ (referredBy records).count "_1" = 1) ∧
      textsUnder "_3" code.items = ["a"] ∧ (referredBy records).count "_3" = 0 := by
  have hfresh : DeclList.areFresh scatteredTexts = true := by decide +kernel
  have hok : (({} : Compiler).compile scatteredTexts (Listing.empty false)).outcome = .ok () := by decide +kernel
  have hdata : (DeclList.placedData 0 (({} : Compiler).compile scatteredTexts (Listing.empty false)).program).map
      (fun x => (x.depth, x.item.constant)) =
    [(1, some ⟨.string "a", some "_3"⟩), (0, some ⟨.string "b", some "_1"⟩), (1, some ⟨.string "c", some "_4"⟩)] := by
    decide +kernel
  obtain ⟨-, -, -, -, -, htexts⟩ := nested_data_unrecorded hfresh hok
  have houter : (0, some ⟨.string "b", some "_1"⟩) ∈ (DeclList.placedData 0
      (({} : Compiler).compile scatteredTexts (Listing.empty false)).program).map
        (fun x => (x.depth, x.item.constant)) := by rw [hdata]; decide
  have hinner : (1, some ⟨.string "a", some "_3"⟩) ∈ (DeclList.placedData 0
      (({} : Compiler).compile scatteredTexts (Listing.empty false)).program).map
        (fun x => (x.depth, x.item.constant)) := by rw [hdata]; decide
  obtain ⟨x, hx, hxeq⟩ := List.mem_map.mp houter
  obtain ⟨hxdepth, hxconst⟩ := Prod.mk.inj hxeq
  obtain ⟨y, hy, hyeq⟩ := List.mem_map.mp hinner
  obtain ⟨hydepth, hyconst⟩ := Prod.mk.inj hyeq
  have hb := htexts x hx "b" "_1" hxconst
  have ha := htexts y hy "a" "_3" hyconst
  rw [if_pos hxdepth] at hb
  rw [if_neg (by rw [hydepth]; decide)] at ha
  exact ⟨hfresh, hok, by decide +kernel, hb, ha⟩

end UnitCompiler
