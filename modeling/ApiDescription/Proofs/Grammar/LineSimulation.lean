import ApiDescription.Proofs.Grammar.Simulation

/-!
# Simulations across lines

Every rule of the grammar skips the line feeds and comments behind the line feeds that it takes,
or ends with such a line feed and leaves them to the rule behind it, which does. Two readings may
therefore be apart wherever a line has ended. If they are together again behind the run of line
feeds and comments there, they read the same declarations but for their docs.
-/

namespace ApiDescription

/-- A member with its docs changed. -/
def Member.mapDocs (change : List Text → List Text) (member : Member) : Member :=
  { member with docs := change member.docs }

/-- A type with its docs and those of its members changed. -/
def TypeDecl.mapDocs (change : List Text → List Text) : TypeDecl → TypeDecl
  | .struct name members docs => .struct name (members.map (Member.mapDocs change)) (change docs)
  | .alias name target docs => .alias name target (change docs)

/-- A route with its docs changed. -/
def Route.mapDocs (change : List Text → List Text) (route : Route) : Route :=
  { route with docs := change route.docs }

/-- A route group with the docs of its routes changed. -/
def RouteGroup.mapDocs (change : List Text → List Text) (group : RouteGroup) : RouteGroup :=
  { group with routes := group.routes.map (Route.mapDocs change) }

/-- A declaration with all docs in it changed. -/
def Declaration.mapDocs (change : List Text → List Text) : Declaration → Declaration
  | .types decls => .types (decls.map (TypeDecl.mapDocs change))
  | .group name routes => .group name (routes.mapDocs change)
  | declaration => declaration

theorem Member.mapDocs_id : Member.mapDocs id = id := rfl

theorem TypeDecl.mapDocs_id : TypeDecl.mapDocs id = id := by
  funext decl
  cases decl <;> simp [TypeDecl.mapDocs, Member.mapDocs_id]

theorem Route.mapDocs_id : Route.mapDocs id = id := rfl

theorem RouteGroup.mapDocs_id : RouteGroup.mapDocs id = id := by
  funext group
  simp [RouteGroup.mapDocs, Route.mapDocs_id]

/-- Docs that are not changed leave a declaration as it is. -/
theorem Declaration.mapDocs_id : Declaration.mapDocs id = id := by
  funext declaration
  cases declaration <;>
    simp [Declaration.mapDocs, TypeDecl.mapDocs_id, RouteGroup.mapDocs_id]

theorem Declaration.map_mapDocs_id : List.map (Declaration.mapDocs id) = id := by
  rw [mapDocs_id, List.map_id_fun]

/-- A way to compare the rules of two readings that is kept where lines end. Behind a line feed the
readings may be apart, and behind the line feeds and comments there they are together again. -/
structure LineSimulation extends Simulation where
  /-- What the docs in the two readings have in common. -/
  keep : List Text → List Text
  parted {α β : Type} {before : Standing} {same : α → β → Prop} {rule : Rule α} {rule' : Rule β}
    (related : Relates before .together same rule rule') : Relates before .apart same rule rule'
  met {α β : Type} {after : Standing} {same : α → β → Prop} {rule : Rule α} {rule' : Rule β}
    (related : Relates .apart after same rule rule') : Relates .together after same rule rule'
  current : Relates .together .together Alike Rule.current Rule.current
  trailingComment {token found : Token} (alike : Alike token found) :
    Relates .together .together Eq (Rule.trailingComment token.start.line)
      (Rule.trailingComment found.start.line)
  lineEnd : Relates .together .apart Eq Rule.lineEnd Rule.lineEnd
  skipSpacing : Relates .apart .together Eq Rule.skipSpacing Rule.skipSpacing
  docs : Relates .apart .together (Seen keep) Rule.docs Rule.docs
  /-- A loop whose items may end with their lines. -/
  block {α β γ : Type} {led : γ → γ → Prop} {same : α → β → Prop} {lead : Rule γ}
    {closing : Mark} {fault : SyntaxError.Cause} {item : γ → Rule α} {item' : γ → Rule β}
    [HasCounterparts led] [HasCounterparts same] (natural : ∀ move, fault.map move = fault)
    (forward : Rule.Forward lead)
    (consumes : ∀ value, Rule.Consumes (item value))
    (consumes' : ∀ value, Rule.Consumes (item' value))
    (leads : Relates .apart .together led lead lead)
    (items : ∀ value answer, led value answer →
      Relates .together .apart same (item value) (item' answer)) :
    Relates .together .together (List.Forall₂ same)
      (many (Rule.untilClosed lead (.mark closing) fault item))
      (many (Rule.untilClosed lead (.mark closing) fault item'))
  /-- A loop whose rounds end where they begin. -/
  many {α β : Type} {standing : Standing} {same : α → β → Prop} {round : Rule (Option α)}
    {round' : Rule (Option β)} (shrinks : ShrinksWithin Stream.Ended round)
    (shrinks' : ShrinksWithin Stream.Ended round')
    (related : Relates standing standing (Option.Rel same) round round') :
    Relates standing standing (List.Forall₂ same) (many round) (many round')

namespace LineSimulation

open Simulation (question)

variable (both : LineSimulation) {α β : Type} {same : α → β → Prop}

/-- What two rules have in common from inside a line to where the next one begins. -/
abbrev Ends (same : α → β → Prop) (rule : Rule α) (rule' : Rule β) : Prop :=
  both.Relates .together .apart same rule rule'

/-- A comment that may follow what a line says, and the end of the line. -/
theorem lineClose {token found : Token} {behind : Text → Rule α} {behind' : Text → Rule β}
    (alike : both.Alike token found) (later : ∀ comment,
      both.Relates .apart .apart same (behind comment) (behind' comment)) :
    both.Ends same
      (Rule.trailingComment token.start.line >>= fun comment => Rule.lineEnd >>= fun _ =>
        behind comment)
      (Rule.trailingComment found.start.line >>= fun comment => Rule.lineEnd >>= fun _ =>
        behind' comment) :=
  both.bind (both.trailingComment alike) fun comment _ sameComment =>
    both.bind both.lineEnd fun _ _ _ => sameComment ▸ later comment

theorem imports : both.Ends Eq Rule.imports Rule.imports := by
  unfold Rule.imports
  rw [Rule.groupedImport?_eq]
  refine both.bind (both.expect rfl) fun _ _ _ => both.bind (both.accepts rfl) fun _ _ same =>
    both.ite (question same) ?_ ?_
  · exact both.coarsen (both.parted (both.items (fun _ => rfl) Rule.consumes_importedFile
      Rule.consumes_importedFile both.importedFile)) fun _ _ => eq_of_forall₂
  · exact both.bind (both.expect rfl) fun _ _ alike =>
      both.answer both.lineEnd fun _ _ _ => by rw [both.text alike]

theorem version : both.Ends Eq Rule.version Rule.version :=
  both.bind (both.expect rfl) fun _ _ start => both.bind (both.expect rfl) fun _ _ _ =>
    both.bind (both.expect rfl) fun _ _ file =>
      both.lineClose start fun _ => both.pure (both.text file).symm

theorem member {docs docs' : List Text} (same : Seen both.keep docs docs') :
    both.Ends (Seen (Member.mapDocs both.keep)) (Rule.member docs) (Rule.member docs') := by
  rw [Rule.member_eq, Rule.member_eq]
  refine both.bind both.current fun first first' alike => both.bind both.memberHead
    fun head _ sameHead => both.bind (both.textIf rfl) fun tag _ sameTag => ?_
  subst sameHead sameTag
  exact both.lineClose alike fun comment => both.pure <| by
    simp only [Seen, Member.mapDocs, show both.keep docs' = both.keep docs from same]

theorem members :
    both.Inside (Seen (List.map (Member.mapDocs both.keep))) Rule.members Rule.members := by
  unfold Rule.members
  rw [Rule.member?_eq]
  exact both.coarsen (both.block (fun _ => rfl) Rule.forward_docs Rule.consumes_member
    Rule.consumes_member both.docs fun _ _ => both.member) fun _ _ => Seen.of_forall₂

theorem typeBody {docs docs' : List Text} (same : Seen both.keep docs docs') :
    both.Ends (Seen (TypeDecl.mapDocs both.keep)) (Rule.typeBody docs) (Rule.typeBody docs') := by
  have sameDocs : both.keep docs' = both.keep docs := same
  have struct (name : Text) : both.Ends (Seen (TypeDecl.mapDocs both.keep))
      (Rule.members >>= fun members => pure (.struct name members docs))
      (Rule.members >>= fun members => pure (.struct name members docs')) :=
    both.answer (both.parted both.members) fun _ _ sameMembers =>
      congrArg₂ (TypeDecl.struct name) sameMembers sameDocs
  refine both.bind both.expectName fun name name' alike => ?_
  rw [both.text alike]
  exact both.bind (both.accepts rfl) fun _ _ same => both.ite (question same)
    (both.bind (both.expect rfl) fun _ _ _ => struct name.text)
    (both.bind (both.accepts rfl) fun _ _ same => both.ite (question same)
      (struct name.text)
      (both.bind (both.accepts rfl) fun _ _ _ =>
        both.bind (both.typeExpr both.typeWithin) fun _ _ same =>
          both.answer both.lineEnd fun _ _ _ =>
            congrArg₂ (TypeDecl.alias name.text) (congrArg some same.symm) sameDocs))

theorem typeDecls {docs docs' : List Text} (same : Seen both.keep docs docs') :
    both.Ends (Seen (List.map (TypeDecl.mapDocs both.keep))) (Rule.typeDecls docs)
      (Rule.typeDecls docs') := by
  unfold Rule.typeDecls
  rw [Rule.groupedType?_eq]
  refine both.bind (both.expect rfl) fun _ _ _ => both.bind (both.accepts rfl)
    fun _ _ sameAnswer => both.ite (question sameAnswer) ?_ ?_
  · exact both.coarsen (both.parted (both.block (fun _ => rfl) Rule.forward_docs
      Rule.consumes_typeBody Rule.consumes_typeBody both.docs fun _ _ => both.typeBody))
      fun _ _ => Seen.of_forall₂
  · exact both.answer (both.typeBody same) fun _ _ sameDecl =>
      congrArg (fun decl => [decl]) sameDecl

theorem routeLine (notes : RouteNotes) {docs docs' : List Text}
    (same : Seen both.keep docs docs') :
    both.Ends (Seen (Route.mapDocs both.keep)) (Rule.routeLine notes docs)
      (Rule.routeLine notes docs') := by
  refine both.bind both.expectName fun methodToken methodToken' alike => ?_
  dsimp only
  rw [both.value alike]
  refine both.bind (both.refuseIf alike fun _ => rfl) fun _ _ _ =>
    both.bind (both.expect rfl) fun path path' pathAlike => ?_
  rw [both.value pathAlike]
  refine both.bind (both.bodyIf (both.sees rfl)) fun request _ sameRequest =>
    both.bind (both.bodyIf (both.accepts rfl)) fun response _ sameResponse => ?_
  subst sameRequest sameResponse
  exact both.lineClose alike fun comment => both.bind (both.refuseIf alike fun _ => rfl)
    fun _ _ _ => both.pure <| by
      simp only [Seen, Route.mapDocs, show both.keep docs' = both.keep docs from same]

theorem route {docs docs' : List Text} (same : Seen both.keep docs docs') :
    both.Ends (Seen (Route.mapDocs both.keep)) (Rule.route both.source docs)
      (Rule.route both.other docs') := by
  rw [Rule.route_eq, Rule.route_eq]
  refine both.bind (both.many (Rule.shrinks_routeNote? _) (Rule.shrinks_routeNote? _)
    (both.routeNote? (both.met both.skipSpacing))) fun notes notes' sameNotes => ?_
  obtain rfl := eq_of_forall₂ sameNotes
  exact both.routeLine _ same

theorem serviceGroup :
    both.Inside (Seen fun read => (read.1, read.2.mapDocs both.keep))
      (Rule.serviceGroup both.source) (Rule.serviceGroup both.other) := by
  refine both.bind (both.groupServer (both.met both.skipSpacing)) fun server _ sameServer =>
    both.bind (both.expect rfl) fun _ _ _ => both.bind both.expectName fun name name' alike =>
      both.bind (both.expect rfl) fun _ _ _ => ?_
  rw [Rule.route?_eq, Rule.route?_eq, both.text alike, both.value alike]
  subst sameServer
  refine both.answer (both.block (fun _ => rfl) Rule.forward_docs (Rule.consumes_route _)
    (Rule.consumes_route _) both.docs fun _ _ => both.route) fun routes routes' sameRoutes => ?_
  have same : routes'.map (Route.mapDocs both.keep) = routes.map (Route.mapDocs both.keep) :=
    Seen.of_forall₂ sameRoutes
  simp only [Seen, RouteGroup.mapDocs, same]

/-- A declaration is told by its first token. -/
theorem declarationOf {docs docs' : List Text} (same : Seen both.keep docs docs') (kind : Kind) :
    Option.Rel (both.Ends (Seen (Declaration.mapDocs both.keep)))
      (Rule.declarationOf both.source docs kind) (Rule.declarationOf both.other docs' kind) := by
  have group : both.Ends (Seen (Declaration.mapDocs both.keep))
      (Rule.serviceGroup both.source >>= fun read => pure (.group read.1 read.2))
      (Rule.serviceGroup both.other >>= fun read => pure (.group read.1 read.2)) := by
    refine both.answer (both.parted both.serviceGroup) fun read read' same => ?_
    rw [Seen, Prod.mk.injEq] at same
    simp only [Seen, Declaration.mapDocs, same.1, same.2]
  unfold Rule.declarationOf
  cases kind with
  | keyword word =>
    cases word with
    | syntaxWord => exact .some (both.answer both.version fun _ _ same => by rw [same]; rfl)
    | info => exact .some (both.answer (both.parted both.info) fun _ _ same => by rw [same]; rfl)
    | importWord => exact .some (both.answer both.imports fun _ _ same => by rw [same]; rfl)
    | type => exact .some <|
        both.answer (both.typeDecls same) fun _ _ same => congrArg Declaration.types same
    | service => exact .some group
    | _ => exact .none
  | marker found =>
    cases found with
    | server => exact .some group
    | _ => exact .none
  | _ => exact .none

theorem declarationBelow {docs docs' : List Text} (same : Seen both.keep docs docs') :
    both.Ends (Option.Rel (Seen (Declaration.mapDocs both.keep)))
      (Rule.declarationBelow both.source docs) (Rule.declarationBelow both.other docs') := by
  rw [Rule.declarationBelow_eq, Rule.declarationBelow_eq]
  refine both.bind both.current fun token found alike => ?_
  rw [both.kind alike]
  have declared := both.declarationOf same token.kind
  generalize Rule.declarationOf both.source docs token.kind = rule at declared
  generalize Rule.declarationOf both.other docs' token.kind = other at declared
  cases declared with
  | some related => exact both.answer related fun _ _ sameItem => .some sameItem
  | none => exact both.ite Iff.rfl (both.parted (both.pure .none)) (both.fail fun _ _ => rfl)

/-- The declarations of the two readings are the same but for docs, and those are the same as far
as the readings keep them. -/
theorem declarations :
    both.Relates .apart .apart (Seen (List.map (Declaration.mapDocs both.keep)))
      (ApiDescription.many (Rule.declaration? both.source))
      (ApiDescription.many (Rule.declaration? both.other)) := by
  have round : both.Relates .apart .apart (Option.Rel (Seen (Declaration.mapDocs both.keep)))
      (Rule.declaration? both.source) (Rule.declaration? both.other) := by
    rw [Rule.declaration?_eq, Rule.declaration?_eq]
    exact both.bind both.docs fun _ _ => both.declarationBelow
  exact both.coarsen (both.many (Rule.shrinks_declaration? _) (Rule.shrinks_declaration? _) round)
    fun _ _ => Seen.of_forall₂

end LineSimulation

end ApiDescription
