import MarkupArena.Reading.Characters
import MarkupArena.Reading.Foreign
/-!
The rules for tags in every mode. A tag that ends part of a document, a table or a selection is
taken up again in the mode below; the depth of the open elements bounds how often.
-/
namespace MarkupArena.Reading.Builder

/-- A start tag under the rules of a mode. -/
def startIn : Nat → Mode → Tag → Builder → Builder
  | 0, _, _, b => b
  | fuel + 1, mode, tag, b =>
    let name := tag.name
    let again := sendStart (fun b => startIn fuel b.mode tag b) tag
    match mode with
    | .body => b.startBody tag
    | .rawText => b
    | .beforeHead =>
      if name = "html" then b
      else if name = "head" then b.openHead tag.attributes
      else again (b.openHead [])
    | .head =>
      if name = "html" ∨ name = "head" then b
      else if name = "noscript" then b.startBody tag
      else if headNames.contains name then b.startHead tag
      else again b.closeHead
    | .afterHead => b.startAfterHead tag
    | .afterBody => if name = "html" then b else (b.withMode .body).startBody tag
    | .frameset => b.startFrameset tag
    | .template =>
      if headNames.contains name then b.startHead tag
      else
        let next : Mode :=
          if name = "caption" ∨ name = "colgroup" ∨ sectionNames.contains name then .table
          else if name = "col" then .columnGroup
          else if name = "tr" then .tableBody
          else if cellNames.contains name then .row
          else .body
        startIn fuel next tag
          { b with mode := next, templateModes := next :: b.templateModes.drop 1 }
    | .tableText => again b.flushTable
    | .table =>
      if name = "caption" then ((b.clearToTable.addMarker).openTag tag).withMode .caption
      else if name = "colgroup" then (b.clearToTable.openTag tag).withMode .columnGroup
      else if name = "col" then
        ((b.clearToTable.openImplied "colgroup").withMode .columnGroup).openColumn
      else if sectionNames.contains name then (b.clearToTable.openTag tag).withMode .tableBody
      else if name = "tr" then
        ((b.clearToTable.openImplied "tbody").withMode .tableBody).openRow tag
      else if cellNames.contains name then
        ((b.clearToTable.openImplied "tbody").withMode .tableBody).openCellInRow tag
      else if name = "table" then
        if b.stack.hasInTable "table" then again (b.popNamed "table").resetMode
        else b
      else if name = "style" ∨ name = "script" ∨ name = "template" then b.startHead tag
      else if name = "input" ∧ isHidden tag then b.addVoid name
      else if name = "form" then
        if b.form.isSome || b.inTemplate then b
        else { (b.openTag tag).pop with form := some b.draft.size }
      else b.fosteringDo (startBody · tag)
    | .caption =>
      if partNames.contains name then
        if b.stack.hasInTable "caption" then startIn fuel .table tag b.closeCaption else b
      else b.startBody tag
    | .columnGroup =>
      if name = "html" then b
      else if name = "col" then b.openColumn
      else if name = "template" then b.startHead tag
      else if b.isIn ["colgroup"] then again (b.pop.withMode .table)
      else b
    | .tableBody =>
      if name = "tr" then b.openRow tag
      else if cellNames.contains name then b.openCellInRow tag
      else if partNames.contains name then
        if b.inSection then startIn fuel .table tag b.closeSection else b
      else startIn fuel .table tag b
    | .row =>
      if cellNames.contains name then b.openCell tag
      else if partNames.contains name then
        if b.stack.hasInTable "tr" then startIn fuel .tableBody tag b.closeRow else b
      else startIn fuel .table tag b
    | .cell =>
      if partNames.contains name then
        if b.inCell then startIn fuel .row tag b.closeCell else b
      else b.startBody tag
    | .selectInTable =>
      if name = "caption" ∨ name = "table" ∨ sectionNames.contains name ∨ name = "tr" ∨
          cellNames.contains name then
        again b.closeSelect
      else startIn fuel .select tag b
    | .select =>
      match name with
      | "option" => b.startOption tag
      | "optgroup" => b.closeOptions.openTag tag
      | "hr" => b.closeOptions.addVoid name
      | "select" => if b.inSelectScope then b.closeSelect else b
      | "input" | "keygen" | "textarea" =>
        if b.inSelectScope then again b.closeSelect else b
      | "script" | "template" => b.startHead tag
      | _ => b

/-- An end tag under the rules of a mode. -/
def endIn : Nat → Mode → String → Builder → Builder
  | 0, _, _, b => b
  | fuel + 1, mode, name, b =>
    let again := sendEnd (fun b => endIn fuel b.mode name b) name
    match mode with
    | .body => b.endBody name
    | .beforeHead =>
      if name = "head" ∨ name = "body" ∨ name = "html" ∨ name = "br" then again (b.openHead [])
      else b
    | .head =>
      match name with
      | "head" => b.closeHead
      | "body" | "html" | "br" => again b.closeHead
      | "template" => b.closeTemplate
      | _ => b
    | .afterHead =>
      match name with
      | "body" | "html" | "br" => b.openBody.endBody name
      | "template" => b.closeTemplate
      | _ => b
    | .afterBody => if name = "html" then b else (b.withMode .body).endBody name
    | .frameset => if name = "frameset" then b.endFrameset else b
    | .rawText => b.pop.withMode b.returnMode
    | .template => if name = "template" then b.closeTemplate else b
    | .tableText => again b.flushTable
    | .table =>
      if name = "table" then
        if b.stack.hasInTable "table" then (b.popNamed "table").resetMode else b
      else if name = "template" then b.closeTemplate
      else if name = "body" ∨ name = "html" ∨ partNames.contains name then b
      else b.fosteringDo (endBody · name)
    | .caption =>
      if name = "caption" ∨ name = "table" then
        if b.stack.hasInTable "caption" then
          let b := b.closeCaption
          if name = "table" then endIn fuel .table name b else b
        else b
      else if name = "body" ∨ name = "html" ∨ partNames.contains name then b
      else b.endBody name
    | .columnGroup =>
      if name = "colgroup" then
        if b.isIn ["colgroup"] then b.pop.withMode .table else b
      else if name = "template" then b.closeTemplate
      else if name = "col" then b
      else if b.isIn ["colgroup"] then again (b.pop.withMode .table)
      else b
    | .tableBody =>
      if sectionNames.contains name then
        if b.stack.hasInTable name then b.closeSection else b
      else if name = "table" then
        if b.inSection then endIn fuel .table name b.closeSection else b
      else if name = "body" ∨ name = "html" ∨ partNames.contains name then b
      else endIn fuel .table name b
    | .row =>
      if name = "tr" then
        if b.stack.hasInTable "tr" then b.closeRow else b
      else if name = "table" then
        if b.stack.hasInTable "tr" then endIn fuel .tableBody name b.closeRow else b
      else if sectionNames.contains name then
        if b.stack.hasInTable name || b.stack.hasInTable "tr" then
          endIn fuel .tableBody name b.closeRow
        else b
      else if name = "body" ∨ name = "html" ∨ partNames.contains name then b
      else endIn fuel .table name b
    | .cell =>
      if cellNames.contains name then
        if b.stack.hasInTable name then
          (b.popImplied.popNamed name).clearFormatting.withMode .row
        else b
      else if name = "table" ∨ name = "tr" ∨ sectionNames.contains name then
        if b.stack.hasInTable name then endIn fuel .row name b.closeCell else b
      else if name = "body" ∨ name = "html" ∨ partNames.contains name then b
      else b.endBody name
    | .selectInTable =>
      if name = "caption" ∨ name = "table" ∨ sectionNames.contains name ∨ name = "tr" ∨
          cellNames.contains name then
        if b.stack.hasInTable name then again b.closeSelect else b
      else endIn fuel .select name b
    | .select =>
      match name with
      | "optgroup" =>
        let b := if b.isOptionInGroup then b.pop else b
        if b.isIn ["optgroup"] then b.pop else b
      | "option" => if b.isIn ["option"] then b.pop else b
      | "select" => if b.inSelectScope then b.closeSelect else b
      | "template" => b.closeTemplate
      | _ => b

/-- More than enough to take a tag up again for every open element. -/
def fuel (b : Builder) : Nat := 8 * (b.stack.length + 2)

def startTag (b : Builder) (tag : Tag) : Builder :=
  sendStart (fun b => startIn b.fuel b.mode tag b) tag b

def endTag (b : Builder) (name : String) : Builder :=
  sendEnd (fun b => endIn b.fuel b.mode name b) name b

end MarkupArena.Reading.Builder
