/-!
# Pages of the manual

Some components are described in a manual that is kept elsewhere. The layout of
that manual does not follow the names of the components, so the pages of every
component are listed by hand. A component that is listed here is also one that is
documented by default.
-/

namespace ComponentCatalog.Manual

/-- Where the manual is kept, unless a configuration says otherwise. -/
def defaultBaseUrl : String :=
  "https://raw.githubusercontent.com/wavemaker/docs/master/learn/app-development/widgets"

/-- The pages of the components in the group “containers”. -/
def containerPages : List (String × List String) := [
    ("accordion", ["container/accordion.md"]),
    ("container", ["container/container.md"]),
    ("layoutgrid", ["container/grid-layout.md"]),
    ("linearlayout", ["container/layout.md"]),
    ("panel", ["container/panel.md"]),
    ("tabs", ["container/tabs.md"]),
    ("tile", ["container/tile.md"]),
    ("wizard", ["container/wizard.md"])]

/-- The pages of the components in the group “basic”. -/
def basicPages : List (String × List String) := [
    ("anchor", ["basic/anchor.md"]),
    ("icon", ["basic/icon.md"]),
    ("label", ["basic/label.md"]),
    ("lottie", ["basic/lottie.md"]),
    ("message", ["basic/message.md"]),
    ("picture", ["basic/picture.md"]),
    ("progress-bar", ["basic/progress-bar.md"]),
    ("progress-circle", ["basic/progress-circle.md"]),
    ("search", ["basic/search.md"]),
    ("spinner", ["basic/spinner.md"]),
    ("video", ["basic/video.md"]),
    ("tooltip", ["navigation/popover.md"])]

/-- The pages of the components in the group “form inputs”. -/
def formPages : List (String × List String) := [
    ("button", ["form-widgets/button.md"]),
    ("buttongroup", ["form-widgets/button-group.md"]),
    ("calendar", ["form-widgets/calendar.md"]),
    ("checkbox", ["form-widgets/checkbox.md"]),
    ("checkboxset", ["form-widgets/checkboxset.md"]),
    ("chips", ["form-widgets/chips.md"]),
    ("currency", ["form-widgets/currency.md"]),
    ("date", ["form-widgets/date-time-datetime.md"]),
    ("datetime", ["form-widgets/date-time-datetime.md"]),
    ("time", ["form-widgets/date-time-datetime.md"]),
    ("fileupload", ["form-widgets/file-upload.md"]),
    ("number", ["form-widgets/number.md"]),
    ("radioset", ["form-widgets/radioset.md"]),
    ("rating", ["form-widgets/rating-widget.md"]),
    ("select", ["form-widgets/select.md"]),
    ("selectlocale", ["form-widgets/select-locale.md"]),
    ("slider", ["form-widgets/slider.md"]),
    ("switch", ["form-widgets/switch.md"]),
    ("text", ["form-widgets/text.md"]),
    ("textarea", ["form-widgets/textarea.md"]),
    ("toggle", ["form-widgets/toggle.md"])]

/-- The pages of the components in the group “charts”. -/
def chartPages : List (String × List String) := [
    ("area-chart", ["chart/chart-widget.md"]),
    ("bar-chart", ["chart/chart-widget.md"]),
    ("bubble-chart", ["chart/chart-widget.md"]),
    ("column-chart", ["chart/chart-widget.md"]),
    ("donut-chart", ["chart/chart-widget.md"]),
    ("line-chart", ["chart/chart-widget.md"]),
    ("pie-chart", ["chart/chart-widget.md"])]

/-- The pages of the components in the group “data”. -/
def dataPages : List (String × List String) := [
    ("card", ["datalive/cards.md", "datalive/cards/cards-properties-events-methods.md"]),
    ("list", ["datalive/list.md", "datalive/list/list-properties-events-methods.md"]),
    ("form", ["datalive/form.md", "datalive/form/form-events-methods.md"]),
    ("liveform", ["datalive/live-form.md", "datalive/live-form/events-methods.md"])]

/-- The pages of the components in the group “navigation”. -/
def navigationPages : List (String × List String) := [
    ("menu", ["navigation/dropdown-menu.md"]),
    ("navbar", ["navigation/nav-bar.md"]),
    ("popover", ["navigation/popover.md"])]

/-- The pages of the components in the group “dialogs”. -/
def dialogPages : List (String × List String) := [
    ("dialog", ["design-dialog.md"]),
    ("alertdialog", ["alert-dialog.md"]),
    ("confirmdialog", ["confirm-dialog.md"])]

/-- The pages of the components in the group “advanced”. -/
def advancedPages : List (String × List String) := [
    ("carousel", ["advanced/carousel.md"]),
    ("login", ["advanced/login.md"]),
    ("webview", ["mobile-widgets/media-list.md"])]

/-- The pages of the components in the group “device”. -/
def devicePages : List (String × List String) := [
    ("barcodescanner", ["mobile-widgets/barcode-scanner.md"]),
    ("bottomsheet", ["mobile-widgets/bottom-sheet.md"]),
    ("camera", ["mobile-widgets/camera.md"])]

/-- The pages of all components, by the name of the component in small letters. -/
def defaultPages : List (String × List String) :=
  containerPages ++ basicPages ++ formPages ++ chartPages ++ dataPages ++
    navigationPages ++ dialogPages ++ advancedPages ++ devicePages

end ComponentCatalog.Manual
