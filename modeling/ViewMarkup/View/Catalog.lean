import ViewMarkup.Component.Registry
import ViewMarkup.View.Choice

/-!
# The built-in views

Every built-in view with the properties that markup can set, what its elements may contain and what
a new one starts with.
-/

namespace ViewMarkup.View

/-- A property whose attribute is named after it. -/
def declare (name : String) (kind : Kind) : Property :=
  { name, kind, target := Text.snakeCase name, settable := kind ≠ .object }

/-- A property that takes a member of an enumeration. -/
def choose (name : String) (e : Enumeration) : Property :=
  { name, kind := .enumeration, target := Text.snakeCase name, enumeration := some e }

/-- An attribute that starts with nothing. -/
def unset (name : String) : String × Blueprint := (name, .value .none)

/-- An attribute that starts with a truth value. -/
def flag (name : String) (b : Bool) : String × Blueprint := (name, .value (.bool b))

/-- An attribute that starts with a number. -/
def amount (name : String) (x : Float) : String × Blueprint := (name, .value (.float x))

/-- An attribute that starts with an integer. -/
def count (name : String) (n : Int) : String × Blueprint := (name, .value (.int n))

/-- An attribute that starts with a text. -/
def words (name : String) (s : String) : String × Blueprint := (name, .value (.text s))

/-- An attribute that starts with a member of an enumeration. -/
def choice (name : String) (e : Enumeration) (member : String) : String × Blueprint :=
  (name, .value (.member (memberNamed e member)))

/-- An operation that needs all of its arguments. -/
def ask (name : String) (needed : List String) : Operation := { name, needed }

namespace Catalog

/-! ## Numbers of the classes -/

/-- The drawing attributes of a view. -/
def layerClass : ClassId := 0

/-- The plain view, on which the others build. -/
def viewClass : ClassId := 1

/-- A text. -/
def labelClass : ClassId := 2

/-- What controls have in common. -/
def controlClass : ClassId := 3

/-- A push button. -/
def buttonClass : ClassId := 4

/-- A choice between segments. -/
def segmentedClass : ClassId := 5

/-- A picker with columns of rows. -/
def pickerClass : ClassId := 6

/-- An image. -/
def imageClass : ClassId := 7

/-- What views that arrange their children have in common. -/
def layoutClass : ClassId := 8

/-- A line of views. -/
def boxClass : ClassId := 9

/-- Empty space. -/
def spacerClass : ClassId := 10

/-- A view that scrolls another. -/
def scrollClass : ClassId := 11

/-- A cell of a table. -/
def cellClass : ClassId := 12

/-- A table of sections. -/
def tableClass : ClassId := 13

/-- A label that shows a count. -/
def badgeClass : ClassId := 14

/-! ## The classes -/

/-- Drawing attributes, reached through the layer of a view. -/
def layer : ComponentClass where
  name := "Layer"
  role := .part
  lineage := [layerClass]
  properties := some [
    declare "cornerRadius" .float, declare "borderWidth" .float, declare "borderColor" .color,
    declare "shadowOpacity" .float, declare "masksToBounds" .bool]
  starts := [
    amount "corner_radius" 0.0, amount "border_width" 0.0, unset "border_color",
    amount "shadow_opacity" 0.0, flag "masks_to_bounds" false]

/-- What a layer starts with. -/
def freshLayer : Blueprint := .object (.component layerClass) layer.starts

/-- A plain view keeps the views that it is given. -/
def view : ComponentClass where
  name := "View"
  role := .view
  lineage := [viewClass]
  properties := some [
    declare "backgroundColor" .color, declare "tintColor" .color, declare "layer" .object,
    declare "alpha" .float, declare "hidden" .bool, declare "tag" .int, declare "weight" .float,
    declare "layoutMarginTop" .float, declare "layoutMarginLeft" .float,
    declare "layoutMarginBottom" .float, declare "layoutMarginRight" .float,
    declare "horizontalContentCompressionResistancePriority" .float,
    declare "horizontalContentHuggingPriority" .float,
    declare "verticalContentCompressionResistancePriority" .float,
    declare "verticalContentHuggingPriority" .float]
  declared := some (.capabilities { instruction := true, append := .multi })
  hooks := [(.instruction, .restrictPlatforms), (.append, .addSubview)]
  starts := [
    unset "background_color", unset "tint_color", ("layer", freshLayer), amount "alpha" 1.0,
    flag "hidden" false, count "tag" 0, unset "weight",
    amount "layout_margin_top" 0.0, amount "layout_margin_left" 0.0,
    amount "layout_margin_bottom" 0.0, amount "layout_margin_right" 0.0,
    amount "horizontal_content_compression_resistance_priority" 750.0,
    amount "horizontal_content_hugging_priority" 250.0,
    amount "vertical_content_compression_resistance_priority" 750.0,
    amount "vertical_content_hugging_priority" 250.0,
    ("platforms", .value (.tuple [])), ("subviews", .list [])]
  factory := some .ignoresStyle
  methods := [.create, Hook.instruction.operation, Hook.append.operation, ask "markup_children" []]

/-- A label takes its text from an attribute or from its element. -/
def label : ComponentClass where
  name := "Label"
  role := .view
  lineage := [labelClass, viewClass]
  properties := some [
    declare "text" .string, declare "font" .font, declare "textColor" .color,
    choose "textAlignment" textAlignment, declare "numberOfLines" .int]
  declared := some (.capabilities { instruction := true, text := true })
  hooks := [(.text, .setText)]
  starts := [
    words "text" "", ("font", .value (.font {})), unset "text_color",
    choice "text_alignment" textAlignment "NATURAL", count "number_of_lines" 1]
  methods := [Hook.text.operation]

/-- A control has a state, which follows from its flags. -/
def control : ComponentClass where
  name := "Control"
  role := .view
  lineage := [controlClass, viewClass]
  properties := some [
    declare "enabled" .bool, declare "selected" .bool, declare "highlighted" .bool,
    choose "contentHorizontalAlignment" contentAlignment]
  declared := some (.capabilities { instruction := true })
  starts := [
    flag "enabled" true, flag "selected" false, flag "highlighted" false,
    choice "content_horizontal_alignment" contentAlignment "CENTER"]
  computed := [("state", .controlState)]

/-- A button has a title, a color and an image for every state. -/
def button : ComponentClass where
  name := "Button"
  role := .view
  lineage := [buttonClass, controlClass, viewClass]
  properties := some [
    declare "normalTitle" .string, declare "highlightedTitle" .string,
    declare "disabledTitle" .string, declare "selectedTitle" .string,
    declare "normalTitleColor" .color, declare "highlightedTitleColor" .color,
    declare "disabledTitleColor" .color, declare "selectedTitleColor" .color,
    declare "normalImage" .image, declare "highlightedImage" .image,
    declare "disabledImage" .image, declare "selectedImage" .image, declare "titleFont" .font]
  starts := [
    words "style" "system",
    unset "normal_title", unset "highlighted_title", unset "disabled_title", unset "selected_title",
    unset "normal_title_color", unset "highlighted_title_color", unset "disabled_title_color",
    unset "selected_title_color",
    unset "normal_image", unset "highlighted_image", unset "disabled_image", unset "selected_image",
    ("title_font", .value (.font {}))]
  factory := some .button
  methods := [.create, { name := "title_for_state", optional := ["state"] },
    { name := "title_color_for_state", optional := ["state"] }]

/-- The segments of a control are declared by raw elements. -/
def segmentedControl : ComponentClass where
  name := "SegmentedControl"
  role := .view
  lineage := [segmentedClass, controlClass, viewClass]
  properties := some [declare "selectedSegmentIndex" .int]
  declared := some (.capabilities { instruction := true, raw := true })
  hooks := [(.raw, .addSegment)]
  starts := [("segments", .value (.list [])), count "selected_segment_index" (-1)]
  computed := [("selected_value", .selectedValue)]
  methods := [
    Hook.raw.operation, ask "value_for_segment" ["index"], ask "segment_with_value" ["value"]]

/-- The components and rows of a picker are declared by raw elements. -/
def pickerView : ComponentClass where
  name := "PickerView"
  role := .view
  lineage := [pickerClass, viewClass]
  declared := some (.capabilities { instruction := true, raw := true })
  hooks := [(.raw, .addPickerPart)]
  starts := [
    ("components", .value (.list [])), ("selected_rows", .value (.selection []))]
  methods := [Hook.raw.operation, ask "number_of_components" [], ask "number_of_rows" ["component"],
    ask "name_for_component" ["component"], ask "component_with_name" ["name"],
    ask "row_for_value" ["value", "component"], ask "select_value" ["value", "component"],
    ask "value_for_component" ["component"]]

/-- An image view. -/
def imageView : ComponentClass where
  name := "ImageView"
  role := .view
  lineage := [imageClass, viewClass]
  properties := some [declare "image" .image, choose "contentMode" contentMode]
  declared := some (.capabilities { instruction := true })
  starts := [unset "image", choice "content_mode" contentMode "SCALE_TO_FILL"]
  computed := [("image_size", .imageSize)]

/-- What views that arrange their children have in common. -/
def layoutView : ComponentClass where
  name := "LayoutView"
  role := .view
  lineage := [layoutClass, viewClass]
  properties := some [
    declare "layoutMarginsRelativeArrangement" .bool, declare "topSpacing" .float,
    declare "bottomSpacing" .float, declare "leadingSpacing" .float,
    declare "trailingSpacing" .float]
  starts := [
    flag "layout_margins_relative_arrangement" true, amount "top_spacing" 0.0,
    amount "bottom_spacing" 0.0, amount "leading_spacing" 0.0, amount "trailing_spacing" 0.0]

/-- A box arranges its children in a line. -/
def boxView : ComponentClass where
  name := "BoxView"
  role := .view
  lineage := [boxClass, layoutClass, viewClass]
  properties := some [choose "alignment" boxAlignment, declare "spacing" .float]
  hooks := [(.append, .addArranged)]
  starts := [
    words "axis" "vertical", choice "alignment" boxAlignment "FILL", amount "spacing" 8.0,
    ("arranged_subviews", .list [])]
  factory := some .box
  methods := [.create, Hook.append.operation, ask "markup_children" []]

/-- A spacer takes a share of what is left. -/
def spacer : ComponentClass where
  name := "Spacer"
  role := .view
  lineage := [spacerClass, viewClass]
  declared := some (.capabilities { instruction := true })
  starts := [amount "weight" 1.0]

/-- A scroll view shows a single view. -/
def scrollView : ComponentClass where
  name := "ScrollView"
  role := .view
  lineage := [scrollClass, viewClass]
  properties := some [
    declare "fitToWidth" .bool, declare "fitToHeight" .bool, declare "pagingEnabled" .bool,
    declare "bounces" .bool]
  declared := some (.capabilities { instruction := true, append := .single })
  hooks := [(.append, .setContent)]
  starts := [
    flag "fit_to_width" false, flag "fit_to_height" false, flag "paging_enabled" false,
    flag "bounces" true, unset "content_view"]
  methods := [Hook.append.operation, ask "markup_children" []]

/-- A cell of a table. -/
def tableViewCell : ComponentClass where
  name := "TableViewCell"
  role := .view
  lineage := [cellClass, viewClass]
  properties := some [
    declare "text" .string, declare "detailText" .string, declare "value" .string,
    declare "checked" .bool, declare "textColor" .color]
  declared := some (.capabilities { instruction := true, text := true, append := .single })
  hooks := [(.text, .setText), (.append, .setContent)]
  starts := [
    words "style" "default", words "text" "", unset "detail_text", unset "value",
    flag "checked" false, unset "text_color", unset "content_view"]
  factory := some .cell
  methods := [.create, Hook.text.operation, Hook.append.operation, ask "markup_children" []]

/-- A table; its sections, headers and footers are announced by raw elements. -/
def tableView : ComponentClass where
  name := "TableView"
  role := .view
  lineage := [tableClass, viewClass]
  properties := some [
    declare "rowHeight" .float, declare "separatorColor" .color,
    declare "allowsMultipleSelection" .bool]
  declared := some (.capabilities { instruction := true, raw := true, append := .multi })
  hooks := [(.raw, .addTablePart), (.append, .addRow)]
  starts := [
    amount "row_height" 44.0, unset "separator_color", flag "allows_multiple_selection" false,
    ("sections", .value (.list [.tableSection {}])), unset "_pending_slot"]
  methods := [Hook.raw.operation, Hook.append.operation, ask "markup_children" [],
    ask "number_of_sections" [], ask "number_of_rows" ["section"], ask "cell" ["section", "row"],
    ask "name_for_section" ["section"], ask "section_with_name" ["name"],
    ask "value_for_section" ["section"], ask "values_for_section" ["section"]]

/-- A label that shows a count. -/
def badge : ComponentClass where
  name := "Badge"
  role := .view
  unit := "examples.markup_demo.widgets"
  lineage := [badgeClass, labelClass, viewClass]
  properties := some [declare "count" .int]
  starts := [count "count" 0]
  computed := [("display_text", .displayText)]

/-- The built-in classes in the order of their numbers. -/
def classes : Classes where
  all := #[
    layer, view, label, control, button, segmentedControl, pickerView, imageView, layoutView,
    boxView, spacer, scrollView, tableViewCell, tableView, badge]

/-- The number of the built-in class with a name, if it is one that other classes can build on. -/
def classNamed? (name : String) : Option ClassId :=
  (classes.all.toList.take badgeClass).findIdx? (·.name == name)

/-- The element names that the built-in views go by, with the styles that set them apart. -/
def elementNames : List (String × ClassId × Option String) := [
  ("View", viewClass, none), ("Label", labelClass, none), ("Button", buttonClass, some "system"),
  ("CustomButton", buttonClass, some "custom"), ("ImageView", imageClass, none),
  ("Row", boxClass, some "horizontal"), ("Column", boxClass, some "vertical"),
  ("Spacer", spacerClass, none), ("ScrollView", scrollClass, none),
  ("SegmentedControl", segmentedClass, none), ("PickerView", pickerClass, none),
  ("TableView", tableClass, none), ("TableViewCell", cellClass, some "default"),
  ("SubtitleTableViewCell", cellClass, some "subtitle"),
  ("Value1TableViewCell", cellClass, some "value1")]

/-- The number of the registry that is always there. -/
def defaultRegistry : RegistryId := 0

/-- The component of a built-in element name. -/
def builtin (name : String) (cls : ClassId) (style : Option String) : Component where
  name := name
  cls := cls
  style := style
  capabilities := (classes.capabilities cls).toOption.getD {}

/-- The registry of the built-in element names, and no other. -/
def registries : Registries where
  all := #[{ types := elementNames.map fun (name, cls, style) => (name, builtin name cls style) }]

/-- The modules that are always there. -/
def modules : Modules := [
  ("examples", { isPackage := true }), ("examples.markup_demo", { isPackage := true }),
  (badge.unit, { members := [(badge.name, badgeClass)] })]

end Catalog
end ViewMarkup.View
