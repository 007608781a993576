import QRadarDashboard.Collectors.Theorems
import QRadarDashboard.Detectors.Theorems
import QRadarDashboard.CustomRules.Theorems
import QRadarDashboard.PropertyWatch.Theorems
import QRadarDashboard.Anomaly.Theorems
import QRadarDashboard.Services.Theorems
import QRadarDashboard.Identity.Theorems
import QRadarDashboard.Rules.Theorems
import QRadarDashboard.Security.Theorems
import QRadarDashboard.Fleet.Theorems
